import AiManager.Graph.Consumers

/-! # The consume loops

The projector's process: a loop for every topic that fetches records from its offset, hands them to the engine and
saves the next offset after every record that it gets past. A save can fail, and the process can end at any point; the
next one goes on from the offset that is saved. The loops do what the consumers of the topics do
(`ConsumeLoops.Refines`), and whatever lies below a saved offset has been taken by the engine
(`consume_loops_cover`). The engine takes a record or a request whole: the steps of the loops come before and after,
and not between, the calls of the stores that it makes for one. -/

namespace AiManager.Graph

open Lib

/-! ## Loops -/

/-- A loop with its offset, and the fetched records that it has not handled. -/
inductive ConsumeLoop where
  | stopped
  | running (offset : ℕ) (records : List (ℕ × TopicRecord))

/-- The stores with their effects, newest first, the table `projector_offsets`, and the loops of the process. -/
structure ConsumeLoops (ι : Type) where
  stores : ProjectStores
  effects : List Effect
  saved : ι → Option ℕ
  loops : ι → ConsumeLoop

inductive LoopStep (ι : Type) where
  /-- the loop of a topic starts, unless its offset cannot be loaded -/
  | start (i : ι) (earliest : ℕ) (loads : Bool)
  /-- a fetch brings so many records -/
  | fetch (i : ι) (n : ℕ)
  /-- the next of the fetched records is handled -/
  | handle (i : ι) (faults : Faults) (saves : Bool)
  /-- the process ends -/
  | crash
  | request (p : V1BusPayload) (faults : Faults)

/-- `load_offset`, or else the earliest offset of the broker. -/
def resolveStartOffset (saved : Option ℕ) (earliest : ℕ) : ℕ :=
  match saved with
  | some n => n
  | none => earliest

/-- The records of a topic from an offset on, with their offsets. -/
def recordsFrom (records : List TopicRecord) (offset n : ℕ) : List (ℕ × TopicRecord) :=
  (((records.drop offset).take n).zipIdx offset).map fun x => (x.2, x.1)

namespace ConsumeLoops
variable {ι : Type} [DecidableEq ι]

def new (stores : ProjectStores) : ConsumeLoops ι := ⟨stores, [], fun _ => none, fun _ => .stopped⟩

def setLoop (s : ConsumeLoops ι) (i : ι) (loop : ConsumeLoop) : ConsumeLoops ι :=
  { s with loops := Function.update s.loops i loop }

/-- Get past a record and save the next offset. -/
def moveOn (s : ConsumeLoops ι) (i : ι) (next : ℕ) (records : List (ℕ × TopicRecord)) (saves : Bool) :
    ConsumeLoops ι :=
  { s.setLoop i (.running next records) with
    saved := if saves then Function.update s.saved i (some next) else s.saved }

section Step
variable (mapEvent : V1CanonicalEvent → GraphMutation) (topic : ι → List TopicRecord)

/-- Hand a payload to the engine. -/
def project (s : ConsumeLoops ι) (p : V1BusPayload) (faults : Faults) : GraphResult Unit × ConsumeLoops ι :=
  let (r, stores) := Graph.handle mapEvent faults p s.stores.quiet
  (r, { s with stores := stores, effects := stores.effects ++ s.effects })

def step (s : ConsumeLoops ι) : LoopStep ι → ConsumeLoops ι
  | .start i earliest loads =>
    match s.loops i with
    | .running _ _ => s
    | .stopped => if loads then s.setLoop i (.running (resolveStartOffset (s.saved i) earliest) []) else s
  | .fetch i n =>
    match s.loops i with
    | .running offset [] => s.setLoop i (.running offset (recordsFrom (topic i) offset n))
    | _ => s
  | .handle i faults saves =>
    match s.loops i with
    | .running offset ((k, record) :: records) =>
      match record with
      | .payload p =>
        match s.project mapEvent p faults with
        | (.ok (), s) => s.moveOn i (k + 1) records saves
        -- the rest is fetched again
        | (.error _, s) => s.setLoop i (.running offset [])
      | .empty | .unrecognized => s.moveOn i (k + 1) records saves
    | _ => s
  | .crash => { s with loops := fun _ => .stopped }
  | .request p faults => (s.project mapEvent p faults).2

variable (s : ConsumeLoops ι) (i : ι)

/-- A loop that starts. -/
theorem step_start (earliest : ℕ) (loads : Bool) :
    s.step mapEvent topic (.start i earliest loads) = s ∨ s.loops i = .stopped ∧
      s.step mapEvent topic (.start i earliest loads) =
        s.setLoop i (.running (resolveStartOffset (s.saved i) earliest) []) := by
  unfold step
  dsimp only
  cases hloop : s.loops i with
  | running offset records => exact .inl rfl
  | stopped =>
    cases loads with
    | false => exact .inl rfl
    | true => exact .inr ⟨rfl, rfl⟩

/-- A loop that fetches has handled what it fetched before. -/
theorem step_fetch (n : ℕ) :
    s.step mapEvent topic (.fetch i n) = s ∨ ∃ offset, s.loops i = .running offset [] ∧
      s.step mapEvent topic (.fetch i n) = s.setLoop i (.running offset (recordsFrom (topic i) offset n)) := by
  unfold step
  dsimp only
  cases hloop : s.loops i with
  | stopped => exact .inl rfl
  | running offset records =>
    cases records with
    | cons r rs => exact .inl rfl
    | nil => exact .inr ⟨offset, rfl, rfl⟩

/-- A loop that handles a record gets past it, or has it to fetch again. -/
theorem step_handle (faults : Faults) (saves : Bool) :
    s.step mapEvent topic (.handle i faults saves) = s ∨ ∃ offset k record records,
      s.loops i = .running offset ((k, record) :: records) ∧
      ((∀ p, record ≠ .payload p) ∧
          s.step mapEvent topic (.handle i faults saves) = s.moveOn i (k + 1) records saves ∨
        ∃ p, record = .payload p ∧
          ((s.project mapEvent p faults).1 = .ok () ∧ s.step mapEvent topic (.handle i faults saves) =
              (s.project mapEvent p faults).2.moveOn i (k + 1) records saves ∨
            (∃ e, (s.project mapEvent p faults).1 = .error e) ∧ s.step mapEvent topic (.handle i faults saves) =
              (s.project mapEvent p faults).2.setLoop i (.running offset []))) := by
  unfold step
  dsimp only
  cases hloop : s.loops i with
  | stopped => exact .inl rfl
  | running offset records =>
    cases records with
    | nil => exact .inl rfl
    | cons r records =>
      obtain ⟨k, record⟩ := r
      refine .inr ⟨offset, k, record, records, rfl, ?_⟩
      cases record with
      | empty | unrecognized => exact .inl ⟨nofun, rfl⟩
      | payload p =>
        refine .inr ⟨p, rfl, ?_⟩
        dsimp only
        split
        · next s' hproject =>
          rw [hproject]
          exact .inl ⟨rfl, rfl⟩
        · next e s' hproject =>
          rw [hproject]
          exact .inr ⟨⟨e, rfl⟩, rfl⟩

/-- What is known of the broker: the records before its earliest offset are gone. -/
def Possible (_ : ConsumeLoops ι) : LoopStep ι → Prop
  | .start i earliest _ => ∀ k < earliest, (topic i)[k]? = some .empty
  | _ => True

end Step

end ConsumeLoops

/-! ## Fetched records -/

theorem recordsFrom_cases {records : List TopicRecord} {offset n k : ℕ} {record : TopicRecord}
    {rest : List (ℕ × TopicRecord)} (h : (k, record) :: rest = recordsFrom records offset n) :
    k = offset ∧ records[offset]? = some record ∧ ∃ m, rest = recordsFrom records (offset + 1) m := by
  unfold recordsFrom at h
  cases hdrop : records.drop offset with
  | nil =>
    rw [hdrop] at h
    simp at h
  | cons r rs =>
    cases n with
    | zero => simp at h
    | succ m =>
      rw [hdrop, List.take_succ_cons, List.zipIdx_cons, List.map_cons] at h
      obtain ⟨hhead, hrest⟩ := List.cons.inj h
      obtain ⟨rfl, rfl⟩ := Prod.mk.inj hhead
      have hget : records[k]? = some record := by
        have hfirst := congrArg List.head? hdrop
        rwa [List.head?_drop] at hfirst
      have hnext : records.drop (k + 1) = rs := by
        have htail := congrArg List.tail hdrop
        rwa [List.tail_drop] at htail
      refine ⟨rfl, hget, m, ?_⟩
      unfold recordsFrom
      rw [hrest, hnext]

/-! ## What the consumers have got past -/

namespace Projector
variable {ι : Type} [DecidableEq ι] {mapEvent : V1CanonicalEvent → GraphMutation} {topic : ι → List TopicRecord}
  {a : Projector ι}

/-- Every record that a consumer has got past has its mark. -/
structure Covered (topic : ι → List TopicRecord) (a : Projector ι) : Prop where
  behind : ∀ i, a.offsets i ≤ a.passed i
  marked : ∀ i k p, (topic i)[k]? = some (.payload p) → k < a.passed i → a.stores.graph.applied.has p.key = true

omit [DecidableEq ι] in
/-- What is marked stays, and what the engine reports no error for is marked. -/
theorem take_marks (source : Source ι) (faults : Faults) (p : V1BusPayload) :
    (∀ key, a.stores.graph.applied.has key = true →
      (a.take mapEvent source faults p).2.stores.graph.applied.has key = true) ∧
    ((a.take mapEvent source faults p).1 = .ok () →
      (a.take mapEvent source faults p).2.stores.graph.applied.has p.key = true) := by
  cases hmark : faults.mark with
  | some e =>
    obtain ⟨hresult, hidle⟩ := take_fails mapEvent source (s := a) (p := p) hmark
    rw [hidle.applied, hresult]
    exact ⟨fun _ h => h, fun h => by cases h⟩
  | none =>
    cases hkey : a.stores.graph.applied.has p.key with
    | true =>
      obtain ⟨-, hidle⟩ := take_duplicate mapEvent source hmark hkey
      rw [hidle.applied]
      exact ⟨fun _ h => h, fun _ => hkey⟩
    | false =>
      obtain ⟨-, -, happlied⟩ := take_new mapEvent source hmark hkey
      rw [happlied]
      constructor
      · intro key h
        obtain ⟨u, hu⟩ := KMap.has_iff.mp h
        rw [KMap.has_iff]
        rw [KMap.get_put]
        split_ifs
        · exact ⟨_, rfl⟩
        · exact ⟨u, hu⟩
      · exact fun _ => KMap.has_iff.mpr ⟨(), KMap.get_put_self _ _ _⟩

omit [DecidableEq ι] in
theorem Covered.take (h : Covered topic a) (source : Source ι) (faults : Faults) (p : V1BusPayload) :
    Covered topic (a.take mapEvent source faults p).2 :=
  ⟨h.behind, fun i k q hq hk => (take_marks source faults p).1 _ (h.marked i k q hq hk)⟩

theorem Covered.advance (h : Covered topic a) {i : ι}
    (hmarked : ∀ p, (topic i)[a.offsets i]? = some (.payload p) → a.stores.graph.applied.has p.key = true) :
    Covered topic (a.advance i) := by
  have hbehind := h.behind i
  refine ⟨fun j => ?_, fun j k p hp hk => ?_⟩
  · by_cases hj : j = i
    · subst hj
      simp [Projector.advance]
    · simpa [Projector.advance, Function.update_of_ne hj] using h.behind j
  · by_cases hj : j = i
    · subst hj
      have hk' : k < max (a.passed j) (a.offsets j + 1) := by simpa [Projector.advance] using hk
      by_cases hlast : k < a.passed j
      · exact h.marked j k p hp hlast
      · have hat : k = a.offsets j := by omega
        exact hmarked p (hat ▸ hp)
    · have hk' : k < a.passed j := by simpa [Projector.advance, Function.update_of_ne hj] using hk
      exact h.marked j k p hp hk'

/-- **One step.** -/
theorem Covered.step (h : Covered topic a) (x : ProjectorStep ι) : Covered topic (a.step mapEvent topic x) := by
  cases x with
  | consume i faults =>
    rcases step_consume_cases mapEvent topic a i faults with
      ⟨-, heq⟩ | ⟨r, hrecord, hunread, heq⟩ | ⟨p, hrecord, ⟨hok, heq⟩ | ⟨e, -, heq⟩⟩
    · rw [heq]
      exact h
    · rw [heq]
      refine h.advance fun p hp => ?_
      exact absurd (Option.some.inj (hrecord.symm.trans hp)) (hunread p)
    · rw [heq]
      refine (h.take _ faults p).advance fun q hq => ?_
      have hpq : p = q := TopicRecord.payload.inj (Option.some.inj (hrecord.symm.trans hq))
      exact hpq ▸ (take_marks _ faults p).2 hok
    · rw [heq]
      exact h.take _ faults p
  | restart i saved =>
    refine ⟨fun j => ?_, h.marked⟩
    show Function.update a.offsets i (min saved (a.offsets i)) j ≤ a.passed j
    by_cases hj : j = i
    · subst hj
      rw [Function.update_self]
      exact (min_le_right _ _).trans (h.behind j)
    · rw [Function.update_of_ne hj]
      exact h.behind j
  | request p faults => exact h.take (.request p.key) faults p

theorem Covered.run (h : Covered topic a) (ys : List (ProjectorStep ι)) :
    Covered topic (runFrom (Projector.step mapEvent topic) a ys) := by
  induction ys generalizing a with
  | nil => exact h
  | cons y ys ih => exact ih (h.step y)

variable (mapEvent) in
/-- A consumer gets past records that are gone. -/
theorem run_over_gone {i : ι} {n : ℕ} (hgone : ∀ k < n, (topic i)[k]? = some .empty) :
    ∀ d a, a.offsets i + d = n → ∃ ys, (runFrom (step mapEvent topic) a ys).offsets = Function.update a.offsets i n ∧
      (runFrom (step mapEvent topic) a ys).stores = a.stores ∧ (runFrom (step mapEvent topic) a ys).log = a.log := by
  intro d
  induction d with
  | zero =>
    intro a hd
    refine ⟨[], ?_, rfl, rfl⟩
    rw [← hd]
    exact (Function.update_eq_self i a.offsets).symm
  | succ d ih =>
    intro a hd
    have hrecord : (topic i)[a.offsets i]? = some .empty := hgone _ (by omega)
    have hstep : a.step mapEvent topic (.consume i {}) = a.advance i := by simp [step, hrecord]
    have hoffset : (a.advance i).offsets i + d = n := by
      show Function.update a.offsets i (a.offsets i + 1) i + d = n
      rw [Function.update_self]
      omega
    obtain ⟨ys, hoffsets, hstores, hlog⟩ := ih (a.advance i) hoffset
    have hrun : runFrom (step mapEvent topic) a (.consume i {} :: ys) =
        runFrom (step mapEvent topic) (a.advance i) ys := by
      rw [← hstep]
      rfl
    refine ⟨.consume i {} :: ys, ?_, ?_, ?_⟩
    · rw [hrun, hoffsets]
      exact Function.update_idem _ _ _
    · rw [hrun, hstores]
      rfl
    · rw [hrun, hlog]
      rfl

/-- What is no payload is nothing to the consumer. -/
theorem step_consume_unread {i : ι} {record : TopicRecord} (faults : Faults)
    (hrecord : (topic i)[a.offsets i]? = some record) (hunread : ∀ p, record ≠ .payload p) :
    a.step mapEvent topic (.consume i faults) = a.advance i := by
  cases record with
  | empty | unrecognized => simp [Projector.step, hrecord]
  | payload p => exact absurd rfl (hunread p)

end Projector

/-! ## The loops follow the consumers -/

namespace ConsumeLoops
variable {ι : Type} [DecidableEq ι] {mapEvent : V1CanonicalEvent → GraphMutation} {topic : ι → List TopicRecord}
  {s : ConsumeLoops ι} {a : Projector ι}

/-- The consumers are where the loops are, and no saved offset is ahead of its consumer. -/
structure Refines (topic : ι → List TopicRecord) (s : ConsumeLoops ι) (a : Projector ι) : Prop where
  stores : a.stores = s.stores
  effects : a.log.map Prod.snd = s.effects
  running : ∀ i offset records, s.loops i = .running offset records →
    a.offsets i = offset ∧ ∃ n, records = recordsFrom (topic i) offset n
  saved : ∀ i n, s.saved i = some n → n ≤ a.offsets i
  covered : a.Covered topic

omit [DecidableEq ι] in
theorem refines_new (stores : ProjectStores) : Refines topic (new stores) (Projector.start stores) :=
  ⟨rfl, rfl, fun _ _ _ h => (by cases h), fun _ _ h => (by cases h),
    ⟨fun _ => le_rfl, fun _ _ _ _ h => absurd h (Nat.not_lt_zero _)⟩⟩

/-- Another loop is set, where its consumer is. -/
theorem Refines.setLoop (h : Refines topic s a) (i : ι) {loop : ConsumeLoop}
    (hloop : ∀ offset records, loop = .running offset records →
      a.offsets i = offset ∧ ∃ n, records = recordsFrom (topic i) offset n) : Refines topic (s.setLoop i loop) a := by
  refine ⟨h.stores, h.effects, fun j offset records hj => ?_, h.saved, h.covered⟩
  have hset : Function.update s.loops i loop j = .running offset records := hj
  by_cases hji : j = i
  · subst hji
    rw [Function.update_self] at hset
    exact hloop offset records hset
  · rw [Function.update_of_ne hji] at hset
    exact h.running j offset records hset

variable (mapEvent) in
omit [DecidableEq ι] in
theorem Refines.project (h : Refines topic s a) (source : Source ι) (faults : Faults) (p : V1BusPayload) :
    (s.project mapEvent p faults).1 = (a.take mapEvent source faults p).1 ∧
      Refines topic (s.project mapEvent p faults).2 (a.take mapEvent source faults p).2 := by
  have hstores := h.stores
  unfold ConsumeLoops.project Projector.take
  rw [← hstores]
  refine ⟨rfl, ⟨rfl, ?_, h.running, h.saved, h.covered.take source faults p⟩⟩
  rw [List.map_append, List.map_map, h.effects]
  congr 1
  exact List.map_id _

/-- Both get past a record. -/
theorem Refines.moveOn (h : Refines topic s a) (i : ι) {n : ℕ} (saves : Bool)
    (hmarked : ∀ p, (topic i)[a.offsets i]? = some (.payload p) → a.stores.graph.applied.has p.key = true) :
    Refines topic (s.moveOn i (a.offsets i + 1) (recordsFrom (topic i) (a.offsets i + 1) n) saves) (a.advance i) := by
  have hoffset : ∀ j, (a.advance i).offsets j = if j = i then a.offsets i + 1 else a.offsets j := by
    intro j
    show Function.update a.offsets i (a.offsets i + 1) j = _
    rw [Function.update_apply]
  refine ⟨h.stores, h.effects, fun j offset records hj => ?_, fun j m hj => ?_, h.covered.advance hmarked⟩
  · have hset : Function.update s.loops i (.running (a.offsets i + 1) _) j = .running offset records := hj
    rw [hoffset]
    by_cases hji : j = i
    · subst hji
      rw [Function.update_self] at hset
      cases hset
      exact ⟨if_pos rfl, n, rfl⟩
    · rw [Function.update_of_ne hji] at hset
      rw [if_neg hji]
      exact h.running j offset records hset
  · have hset : (if saves then Function.update s.saved i (some (a.offsets i + 1)) else s.saved) j = some m := hj
    rw [hoffset]
    by_cases hji : j = i
    · rw [if_pos hji]
      subst hji
      split_ifs at hset
      · rw [Function.update_self] at hset
        exact (Option.some.inj hset).ge
      · exact (h.saved j m hset).trans (Nat.le_succ _)
    · rw [if_neg hji]
      split_ifs at hset
      · rw [Function.update_of_ne hji] at hset
        exact h.saved j m hset
      · exact h.saved j m hset

/-- A loop starts where its consumer has been taken. -/
theorem Refines.seek (h : Refines topic s a) {i : ι} {n : ℕ} {b : Projector ι}
    (hoffsets : b.offsets = Function.update a.offsets i n) (hstores : b.stores = a.stores) (hlog : b.log = a.log)
    (hcovered : b.Covered topic) (hstopped : s.loops i = .stopped) (hsaved : ∀ m, s.saved i = some m → m ≤ n) :
    Refines topic (s.setLoop i (.running n [])) b := by
  have hb : Refines topic s b := by
    refine ⟨hstores.trans h.stores, by rw [hlog, h.effects], fun j offset records hj => ?_, fun j m hj => ?_, hcovered⟩
    · have hji : j ≠ i := by
        rintro rfl
        rw [hstopped] at hj
        cases hj
      rw [hoffsets, Function.update_of_ne hji]
      exact h.running j offset records hj
    · rw [hoffsets]
      by_cases hji : j = i
      · subst hji
        rw [Function.update_self]
        exact hsaved m hj
      · rw [Function.update_of_ne hji]
        exact h.saved j m hj
  refine hb.setLoop i fun offset records heq => ?_
  cases heq
  refine ⟨?_, 0, by simp [recordsFrom]⟩
  rw [hoffsets, Function.update_self]

/-- A loop starts at its saved offset, or at the earliest. -/
theorem refines_start (h : Refines topic s a) {i : ι} {earliest : ℕ} (loads : Bool)
    (hgone : ∀ k < earliest, (topic i)[k]? = some .empty) :
    ∃ ys, Refines topic (s.step mapEvent topic (.start i earliest loads))
      (runFrom (Projector.step mapEvent topic) a ys) := by
  rcases step_start mapEvent topic s i earliest loads with hstep | ⟨hloop, hstep⟩
  · rw [hstep]
    exact ⟨[], h⟩
  rw [hstep]
  cases hsaved : s.saved i with
  | some n =>
    -- back to the saved offset
    refine ⟨[.restart i n], h.seek ?_ rfl rfl (h.covered.run [.restart i n]) hloop fun m hm => ?_⟩
    · show Function.update a.offsets i (min n (a.offsets i)) = _
      rw [min_eq_left (h.saved i n hsaved)]
      rfl
    · rw [hsaved] at hm
      exact (Option.some.inj hm).ge
  | none =>
    -- back, if need be, and over the records that are gone
    set b := a.step mapEvent topic (.restart i earliest)
    have hb : b.offsets = Function.update a.offsets i (min earliest (a.offsets i)) := rfl
    have hbi : b.offsets i + (earliest - b.offsets i) = earliest := by
      have hle : b.offsets i ≤ earliest := by
        rw [hb, Function.update_self]
        exact min_le_left _ _
      omega
    obtain ⟨ys, hoffsets, hstores, hlog⟩ := Projector.run_over_gone mapEvent hgone _ b hbi
    refine ⟨.restart i earliest :: ys, h.seek ?_ hstores hlog (h.covered.run (.restart i earliest :: ys)) hloop ?_⟩
    · show (runFrom (Projector.step mapEvent topic) b ys).offsets = _
      rw [hoffsets, hb, Function.update_idem]
      rfl
    · intro m hm
      rw [hsaved] at hm
      cases hm

/-- A loop handles the record that its consumer takes. -/
theorem refines_handle (h : Refines topic s a) (i : ι) (faults : Faults) (saves : Bool) :
    ∃ ys, Refines topic (s.step mapEvent topic (.handle i faults saves))
      (runFrom (Projector.step mapEvent topic) a ys) := by
  rcases step_handle mapEvent topic s i faults saves with hstep | ⟨offset, k, record, records, hloop, hhandled⟩
  · rw [hstep]
    exact ⟨[], h⟩
  obtain ⟨rfl, n, hrecords⟩ := h.running i offset _ hloop
  obtain ⟨rfl, hrecord, m, rfl⟩ := recordsFrom_cases hrecords
  refine ⟨[.consume i faults], ?_⟩
  show Refines topic _ (a.step mapEvent topic (.consume i faults))
  rcases hhandled with ⟨hunread, hstep⟩ | ⟨p, rfl, hhandled⟩
  · rw [hstep, Projector.step_consume_unread faults hrecord hunread]
    refine h.moveOn i saves fun p hp => ?_
    exact absurd (Option.some.inj (hrecord.symm.trans hp)) (hunread p)
  obtain ⟨hresult, hafter⟩ := h.project mapEvent (.record i (a.offsets i)) faults p
  rcases Projector.step_consume_payload mapEvent faults hrecord with ⟨hok, heq⟩ | ⟨e, herror, heq⟩
  · rcases hhandled with ⟨-, hstep⟩ | ⟨⟨e, herror⟩, -⟩
    · rw [heq, hstep]
      refine hafter.moveOn i saves fun q hq => ?_
      have hpq : p = q := TopicRecord.payload.inj (Option.some.inj (hrecord.symm.trans hq))
      exact hpq ▸ (Projector.take_marks _ faults p).2 hok
    · cases herror.symm.trans (hresult.trans hok)
  · rcases hhandled with ⟨hok, -⟩ | ⟨-, hstep⟩
    · cases hok.symm.trans (hresult.trans herror)
    · rw [heq, hstep]
      refine hafter.setLoop i fun offset' records' hrun => ?_
      cases hrun
      exact ⟨rfl, 0, by simp [recordsFrom]⟩

/-- **One step** of the loops is some steps of the consumers. -/
theorem refines_step (h : Refines topic s a) {x : LoopStep ι} (hx : Possible topic s x) :
    ∃ ys, Refines topic (s.step mapEvent topic x) (runFrom (Projector.step mapEvent topic) a ys) := by
  cases x with
  | start i earliest loads => exact refines_start h loads hx
  | handle i faults saves => exact refines_handle h i faults saves
  | crash => exact ⟨[], h.stores, h.effects, fun _ _ _ hrun => (by cases hrun), h.saved, h.covered⟩
  | request p faults => exact ⟨[.request p faults], (h.project mapEvent (.request p.key) faults p).2⟩
  | fetch i n =>
    refine ⟨[], ?_⟩
    rcases step_fetch mapEvent topic s i n with hstep | ⟨offset, hloop, hstep⟩
    · rw [hstep]
      exact h
    · rw [hstep]
      refine h.setLoop i fun offset' records' heq => ?_
      cases heq
      exact ⟨(h.running i offset [] hloop).1, n, rfl⟩

theorem refines_run (h : Refines topic s a) {xs : List (LoopStep ι)}
    (hxs : EachStep (step mapEvent topic) (Possible topic) s xs) :
    ∃ ys, Refines topic (runFrom (step mapEvent topic) s xs) (runFrom (Projector.step mapEvent topic) a ys) := by
  induction xs generalizing s a with
  | nil => exact ⟨[], h⟩
  | cons x xs ih =>
    obtain ⟨ys, hstep⟩ := refines_step h hxs.1
    obtain ⟨zs, hrest⟩ := ih hstep hxs.2
    refine ⟨ys ++ zs, ?_⟩
    unfold runFrom
    rw [List.foldl_append]
    exact hrest

end ConsumeLoops

/-- **Loops and offsets.** However the loops of all topics and requests are interleaved, record by record, whichever
fetches, store calls and saves fail, and wherever the process ends and starts again: the stores and the effects on them
are those of some run of the consumers, and every record that can be read and lies below a saved offset has been marked
as applied. -/
theorem consume_loops_cover {ι : Type} [DecidableEq ι] (mapEvent : V1CanonicalEvent → GraphMutation)
    (topic : ι → List TopicRecord) (stores : ProjectStores) {xs : List (LoopStep ι)}
    (hxs : EachStep (ConsumeLoops.step mapEvent topic) (ConsumeLoops.Possible topic) (ConsumeLoops.new stores) xs) :
    (∃ ys, (runFrom (Projector.step mapEvent topic) (Projector.start stores) ys).stores =
          (runFrom (ConsumeLoops.step mapEvent topic) (.new stores) xs).stores ∧
        (runFrom (Projector.step mapEvent topic) (Projector.start stores) ys).log.map Prod.snd =
          (runFrom (ConsumeLoops.step mapEvent topic) (.new stores) xs).effects) ∧
      ∀ i n k p, (runFrom (ConsumeLoops.step mapEvent topic) (.new stores) xs).saved i = some n → k < n →
        (topic i)[k]? = some (.payload p) →
        (runFrom (ConsumeLoops.step mapEvent topic) (.new stores) xs).stores.graph.applied.has p.key = true := by
  obtain ⟨ys, h⟩ := ConsumeLoops.refines_run (ConsumeLoops.refines_new stores) hxs
  refine ⟨⟨ys, h.stores, h.effects⟩, fun i n k p hsaved hk hp => ?_⟩
  rw [← h.stores]
  exact h.covered.marked i k p hp (hk.trans_le ((h.saved i n hsaved).trans (h.covered.behind i)))

/-- A record is taken and its offset is not saved, the process ends, and the next one takes the record again. -/
def endsUnsaved : List (LoopStep Unit) :=
  [.start () 0 true, .fetch () 1, .handle () {} false, .crash, .start () 0 true, .fetch () 1, .handle () {} true]

/-- User `u` enters the group `g`. -/
def joining : V1AclRevocation where
  eventId := "e"
  tenantId := "t"
  globalUserId := "u"
  groupId := "g"
  changeType := "added_to_group"
  timestamp := 0

theorem endsUnsaved_covered :
    (runFrom (ConsumeLoops.step (fun _ => {}) fun _ => [.payload (.acl joining)])
      (.new Projector.emptyStores) endsUnsaved).stores.graph.applied.has ("t", "e") = true := by
  refine (consume_loops_cover _ _ Projector.emptyStores ?_).2 () 1 0 (.acl joining) ?_ Nat.one_pos rfl
  · exact ⟨fun k hk => absurd hk (Nat.not_lt_zero k), trivial, trivial, trivial,
      fun k hk => absurd hk (Nat.not_lt_zero k), trivial, trivial, trivial⟩
  · decide +kernel

end AiManager.Graph
