import Mathlib.Data.List.Dedup
import AiManager.Lib.KMap
import AiManager.Lib.Text
import AiManager.Telemetry.Model

/-! # Secrets of tenants

A secrets file is a flat map. The key of a secret is the name of its tenant with the provider appended, and without
a provider it is a secret for GitHub. At a start the tenants are found by taking the names apart again. -/

namespace AiManager.Telemetry

open Lib

abbrev SecretsMap := KMap String String

/-- `s.strip_suffix(part)` -/
def stripSuffix (s part : String) : Option String :=
  if Text.endsWith s part then some (String.ofList (s.toList.take (s.length - part.length))) else none

def webhookSecretKey (tenantId : String) : String := "WEBHOOK_SECRET_" ++ tenantId

namespace TenantSecrets

/-! ## The overlay -/

/-- A key that is there overwrites the field. -/
def applyToTenant (map : SecretsMap) (config : TenantConfig) : TenantConfig :=
  let key := webhookSecretKey config.tenantId
  let config := { config with githubWebhookSecret := (map.get key).or config.githubWebhookSecret }
  let config := { config with githubWebhookSecret := (map.get (key ++ "_GITHUB")).or config.githubWebhookSecret }
  let config := { config with gitlabWebhookSecret := (map.get (key ++ "_GITLAB")).or config.gitlabWebhookSecret }
  let config := { config with jiraWebhookSecret := (map.get (key ++ "_JIRA")).or config.jiraWebhookSecret }
  let config := { config with linearWebhookSecret := (map.get (key ++ "_LINEAR")).or config.linearWebhookSecret }
  let config := { config with slackSigningSecret := (map.get (key ++ "_SLACK")).or config.slackSigningSecret }
  let config := { config with teamsWebhookSecret := (map.get (key ++ "_TEAMS")).or config.teamsWebhookSecret }
  { config with zendeskWebhookSecret := (map.get (key ++ "_ZENDESK")).or config.zendeskWebhookSecret }

/-- A minimal config from file keys alone. -/
def tenantConfig (map : SecretsMap) (tenantId : String) (defaultGroupIds : List String) : TenantConfig :=
  applyToTenant map { tenantId, defaultGroupIds }

/-! ## Seeding -/

/-- In the order in which they are tried. -/
def providerSuffixes : List String := ["_GITHUB", "_GITLAB", "_SLACK", "_JIRA", "_LINEAR", "_TEAMS", "_ZENDESK"]

/-- The tenant of a key, by what follows the beginning that all keys have. -/
def tenantOfKey (rest : String) : String := (providerSuffixes.findSome? (stripSuffix rest)).getD rest

/-- The tenants of the names in the file, and the two that are always there. -/
def tenantIds (map : SecretsMap) : List String :=
  ((map.items.filterMap fun (name, _) => (Text.stripPrefix name "WEBHOOK_SECRET_").bind fun rest =>
    if tenantOfKey rest = "" then none else some (tenantOfKey rest)) ++ ["ten_github", "ten_demo"]).dedup

/-- The configs that the ingestion service upserts at its start. -/
def seeds (map : SecretsMap) : List TenantConfig :=
  ((tenantIds map).map fun tid => tenantConfig map tid ["grp_eng"]).filter fun cfg =>
    cfg.githubWebhookSecret.isSome || cfg.gitlabWebhookSecret.isSome || cfg.slackSigningSecret.isSome

/-! ## The keys of a tenant -/

def suffix : SourceProvider → Option String
  | .unspecified => none
  | .github => some "_GITHUB"
  | .gitlab => some "_GITLAB"
  | .jira => some "_JIRA"
  | .linear => some "_LINEAR"
  | .slack => some "_SLACK"
  | .teams => some "_TEAMS"
  | .zendesk => some "_ZENDESK"

/-- The keys that are read for a tenant and a provider; the first one that is there counts. -/
def keys (tenantId : String) (provider : SourceProvider) : List String :=
  ((suffix provider).map (webhookSecretKey tenantId ++ ·)).toList ++
    if provider = .github then [webhookSecretKey tenantId] else []

/-- The key of the secret that a tenant has for a provider. -/
def sourceKey (map : SecretsMap) (tenantId : String) (provider : SourceProvider) : Option String :=
  (keys tenantId provider).find? map.has

section Overlay
variable {map : SecretsMap} {config : TenantConfig} {t t' : String} {p p' : SourceProvider} {k : String}

theorem get_of_sourceKey (h : sourceKey map t p = some k) : k ∈ keys t p ∧ map.has k :=
  ⟨List.mem_of_find?_eq_some h, List.find?_some h⟩

theorem sourceKey_eq_none_iff : sourceKey map t p = none ↔ ∀ k ∈ keys t p, map.get k = none := by
  rw [sourceKey, List.find?_eq_none]
  refine forall₂_congr fun k _ => ?_
  rw [Bool.not_eq_true, KMap.has_eq_false_iff]

theorem find?_has_bind_get (map : SecretsMap) (ks : List String) :
    (ks.find? map.has).bind map.get = ks.findSome? map.get := by
  induction ks with
  | nil => rfl
  | cons k ks ih =>
    rw [List.find?_cons, List.findSome?_cons]
    cases hk : map.get k with
    | none =>
      rw [KMap.has_eq_false_iff.mpr hk]
      exact ih
    | some v =>
      rw [KMap.has_iff.mpr ⟨v, hk⟩]
      exact hk

/-- A tenant has the secret of its key, or the one that it had. -/
theorem secretFor_applyToTenant (map : SecretsMap) (config : TenantConfig) (p : SourceProvider) :
    (applyToTenant map config).secretFor p =
      ((sourceKey map config.tenantId p).bind map.get).or (config.secretFor p) := by
  have hone : ∀ k, [k].findSome? map.get = map.get k := by
    intro k
    rw [List.findSome?_singleton]
  rw [sourceKey, find?_has_bind_get]
  cases p with
  | unspecified => rfl
  | github =>
    have htwo : ∀ k k', [k, k'].findSome? map.get = (map.get k).or (map.get k') := by
      intro k k'
      rw [List.findSome?_cons, hone]
      cases map.get k <;> rfl
    show _ = ([webhookSecretKey config.tenantId ++ "_GITHUB", webhookSecretKey config.tenantId].findSome? map.get).or _
    rw [htwo, Option.or_assoc]
    rfl
  | gitlab => exact congrArg (Option.or · _) (hone _).symm
  | jira => exact congrArg (Option.or · _) (hone _).symm
  | linear => exact congrArg (Option.or · _) (hone _).symm
  | slack => exact congrArg (Option.or · _) (hone _).symm
  | teams => exact congrArg (Option.or · _) (hone _).symm
  | zendesk => exact congrArg (Option.or · _) (hone _).symm

end Overlay

/-! ## Names with a suffix -/

section Suffixes
variable {map : SecretsMap} {t t' s s' k : String} {p p' : SourceProvider}

theorem mem_providerSuffixes_iff : s ∈ providerSuffixes ↔ ∃ p, suffix p = some s := by
  constructor
  · intro h
    have hall : ∀ s ∈ providerSuffixes, ∃ p ∈ [SourceProvider.github, .gitlab, .jira, .linear, .slack, .teams, .zendesk],
        suffix p = some s := by decide
    obtain ⟨p, -, hp⟩ := hall s h
    exact ⟨p, hp⟩
  · rintro ⟨p, hp⟩
    cases p
    · cases hp
    all_goals
      obtain rfl := Option.some.inj hp
      decide

theorem suffix_injective (h : suffix p = some s) (h' : suffix p' = some s) : p = p' := by
  have heq := h.trans h'.symm
  revert h heq
  cases p <;> cases p' <;> decide +revert

/-- A name ends in one suffix only. -/
theorem append_suffix_inj (hs : s ∈ providerSuffixes) (hs' : s' ∈ providerSuffixes) (h : t ++ s = t' ++ s') :
    t = t' ∧ s = s' := by
  have hall : ∀ s ∈ providerSuffixes, ∀ s' ∈ providerSuffixes, s.toList <:+ s'.toList → s = s' := by decide
  have hchars := congrArg String.toList h
  rw [String.toList_append, String.toList_append] at hchars
  have hsuffix : s.toList <:+ t'.toList ++ s'.toList := ⟨t.toList, hchars⟩
  have heq : s = s' := by
    rcases List.suffix_or_suffix_of_suffix hsuffix (List.suffix_append _ _) with hsub | hsub
    · exact hall s hs s' hs' hsub
    · exact (hall s' hs' s hs hsub).symm
  subst heq
  exact ⟨String.toList_injective (List.append_cancel_right hchars), rfl⟩

theorem webhookSecretKey_append (t s : String) : webhookSecretKey t ++ s = webhookSecretKey (t ++ s) :=
  String.append_assoc

theorem webhookSecretKey_injective (h : webhookSecretKey t = webhookSecretKey t') : t = t' := by
  have hchars := congrArg String.toList h
  rw [webhookSecretKey, webhookSecretKey, String.toList_append, String.toList_append] at hchars
  exact String.toList_injective (List.append_cancel_left hchars)

theorem mem_keys_iff : k ∈ keys t p ↔
    (∃ s, suffix p = some s ∧ k = webhookSecretKey (t ++ s)) ∨ (p = .github ∧ k = webhookSecretKey t) := by
  rw [keys, List.mem_append, Option.mem_toList, Option.map_eq_some_iff]
  refine or_congr ?_ ?_
  · refine exists_congr fun s => and_congr_right fun _ => ?_
    rw [webhookSecretKey_append]
    exact eq_comm
  · split
    · next hp => simp [hp]
    · next hp => simp [hp]

theorem stripSuffix_append (t s : String) : stripSuffix (t ++ s) s = some t := by
  have hends : Text.endsWith (t ++ s) s = true := by
    rw [Text.endsWith, String.toList_append]
    exact List.isSuffixOf_iff_suffix.mpr (List.suffix_append _ _)
  rw [stripSuffix, if_pos hends, String.length_append, Nat.add_sub_cancel, String.toList_append, ← String.length_toList,
    List.take_left, String.ofList_toList]

theorem eq_append_of_stripSuffix (h : stripSuffix k s = some t) : k = t ++ s := by
  rw [stripSuffix] at h
  split at h
  · next hends =>
    obtain ⟨cs, hcs⟩ := List.isSuffixOf_iff_suffix.mp hends
    obtain rfl := Option.some.inj h
    apply String.toList_injective
    have hlen : k.length - s.length = cs.length := by
      rw [← String.length_toList, ← String.length_toList, ← hcs, List.length_append, Nat.add_sub_cancel]
    rw [String.toList_append, String.toList_ofList, hlen, ← hcs, List.take_left]
  · cases h

/-- A suffix is taken off. -/
theorem tenantOfKey_append (hs : s ∈ providerSuffixes) : tenantOfKey (t ++ s) = t := by
  have hsome : providerSuffixes.findSome? (stripSuffix (t ++ s)) = some t := by
    cases hfind : providerSuffixes.findSome? (stripSuffix (t ++ s)) with
    | none =>
      have hnone := List.findSome?_eq_none_iff.mp hfind s hs
      cases hnone.symm.trans (stripSuffix_append t s)
    | some t' =>
      obtain ⟨s', hs', hstrip⟩ := List.exists_of_findSome?_eq_some hfind
      rw [(append_suffix_inj hs hs' (eq_append_of_stripSuffix hstrip)).1]
  rw [tenantOfKey, hsome]
  rfl

/-- A name without a suffix stays. -/
theorem tenantOfKey_of_plain (h : ∀ s ∈ providerSuffixes, ∀ t', t ≠ t' ++ s) : tenantOfKey t = t := by
  have hnone : providerSuffixes.findSome? (stripSuffix t) = none := by
    rw [List.findSome?_eq_none_iff]
    intro s hs
    cases hstrip : stripSuffix t s with
    | none => rfl
    | some t' => exact absurd (eq_append_of_stripSuffix hstrip) (h s hs t')
  rw [tenantOfKey, hnone]
  rfl

end Suffixes

/-! ## Whose secrets -/

/-- Each tenant has its own secrets, and is seeded if it has one. -/
structure Separated (map : SecretsMap) (tenants : Set String) : Prop where
  overlay : ∀ t ∈ tenants, ∀ groups p,
    (tenantConfig map t groups).secretFor p = (sourceKey map t p).bind map.get
  apart : ∀ t ∈ tenants, ∀ t' ∈ tenants, ∀ p p' k, k ∈ keys t p → k ∈ keys t' p' → map.has k → t = t' ∧ p = p'
  own : ∀ t ∈ tenants, ∀ t' ∈ tenants, t ≠ t' → ∀ p p' k, sourceKey map t p = some k → k ∉ keys t' p'
  seeded : ∀ t ∈ tenants, ∀ groups, (∃ p, ((tenantConfig map t groups).secretFor p).isSome) →
    ∃ config ∈ seeds map, config.tenantId = t

/-- No name in the file is read for a tenant and for the same name with a suffix, and each tenant in the file has a
secret for GitHub, GitLab or Slack under a name that it is found by. -/
structure Separable (map : SecretsMap) (tenants : Set String) : Prop where
  names : ∀ t ∈ tenants, ∀ s ∈ providerSuffixes, t ++ s ∈ tenants → map.has (webhookSecretKey (t ++ s)) = false
  found : ∀ t ∈ tenants, (∃ p, ∃ k ∈ keys t p, map.has k) → t ≠ "" ∧
    ((∃ s ∈ ["_GITHUB", "_GITLAB", "_SLACK"], map.has (webhookSecretKey (t ++ s))) ∨
      (map.has (webhookSecretKey t) ∧ ((∀ s ∈ providerSuffixes, Text.endsWith t s = false) ∨
        ∃ s ∈ providerSuffixes, map.has (webhookSecretKey (t ++ s)))))

section Tenants
variable {map : SecretsMap} {tenants : Set String} {t : String}

theorem secretFor_tenantConfig (map : SecretsMap) (t : String) (groups : List String) (p : SourceProvider) :
    (tenantConfig map t groups).secretFor p = (sourceKey map t p).bind map.get := by
  rw [tenantConfig, secretFor_applyToTenant]
  cases p <;> exact Option.or_none

theorem isSome_secretFor_iff {groups : List String} {p : SourceProvider} :
    ((tenantConfig map t groups).secretFor p).isSome ↔ ∃ k ∈ keys t p, map.has k := by
  rw [secretFor_tenantConfig]
  constructor
  · intro h
    cases hk : sourceKey map t p with
    | none => rw [hk] at h; cases h
    | some k => exact ⟨k, get_of_sourceKey hk⟩
  · rintro ⟨k, hk, hhas⟩
    cases hsource : sourceKey map t p with
    | none => cases (sourceKey_eq_none_iff.mp hsource k hk).symm.trans (KMap.has_iff.mp hhas).choose_spec
    | some k' =>
      obtain ⟨v, hv⟩ := KMap.has_iff.mp (get_of_sourceKey hsource).2
      rw [Option.bind_some, hv]
      rfl

theorem endsWith_eq_false_iff {s : String} : Text.endsWith t s = false ↔ ∀ t', t ≠ t' ++ s := by
  rw [← Bool.not_eq_true, Text.endsWith, List.isSuffixOf_iff_suffix]
  constructor
  · rintro h t' rfl
    exact h ⟨t'.toList, String.toList_append.symm⟩
  · rintro h ⟨cs, hcs⟩
    apply h (String.ofList cs)
    apply String.toList_injective
    rw [String.toList_append, String.toList_ofList, hcs]

theorem eq_append_of_stripPrefix {s part rest : String} (h : Text.stripPrefix s part = some rest) : s = part ++ rest := by
  rw [Text.stripPrefix] at h
  split at h
  · next hstarts =>
    obtain ⟨cs, hcs⟩ := List.isPrefixOf_iff_prefix.mp hstarts
    obtain rfl := Option.some.inj h
    apply String.toList_injective
    rw [String.toList_append, String.toList_ofList, ← hcs, List.drop_left]
  · cases h

/-- The tenants that are found. -/
theorem mem_tenantIds_iff : t ∈ tenantIds map ↔ t ∈ ["ten_github", "ten_demo"] ∨
    (t ≠ "" ∧ ((∃ s ∈ providerSuffixes, map.has (webhookSecretKey (t ++ s))) ∨
      (map.has (webhookSecretKey t) ∧ ∀ s ∈ providerSuffixes, Text.endsWith t s = false))) := by
  rw [tenantIds, List.mem_dedup, List.mem_append, or_comm]
  refine or_congr_right ?_
  rw [List.mem_filterMap]
  constructor
  · rintro ⟨⟨name, v⟩, hitem, hname⟩
    obtain ⟨rest, hrest, htenant⟩ := Option.bind_eq_some_iff.mp hname
    have hhas : map.has (webhookSecretKey rest) := by
      rw [webhookSecretKey, ← eq_append_of_stripPrefix hrest]
      exact KMap.has_iff.mpr ⟨v, KMap.mem_items.mp hitem⟩
    split at htenant
    · cases htenant
    · next hne =>
      obtain rfl := Option.some.inj htenant
      refine ⟨hne, ?_⟩
      cases hfind : providerSuffixes.findSome? (stripSuffix rest) with
      | none =>
        have hplain : tenantOfKey rest = rest := by
          rw [tenantOfKey, hfind]
          rfl
        rw [hplain]
        refine .inr ⟨hhas, fun s hs => endsWith_eq_false_iff.mpr fun t' ht' => ?_⟩
        have hnone := List.findSome?_eq_none_iff.mp hfind s hs
        rw [ht', stripSuffix_append] at hnone
        cases hnone
      | some t' =>
        obtain ⟨s, hs, hstrip⟩ := List.exists_of_findSome?_eq_some hfind
        obtain rfl := eq_append_of_stripSuffix hstrip
        rw [tenantOfKey_append hs]
        exact .inl ⟨s, hs, hhas⟩
  · rintro ⟨hne, h⟩
    have hkey : ∀ rest, map.has (webhookSecretKey rest) → tenantOfKey rest = t →
        ∃ item ∈ map.items, (Text.stripPrefix item.1 "WEBHOOK_SECRET_").bind (fun rest =>
          if tenantOfKey rest = "" then none else some (tenantOfKey rest)) = some t := by
      intro rest hhas htenant
      obtain ⟨v, hv⟩ := KMap.has_iff.mp hhas
      refine ⟨(webhookSecretKey rest, v), KMap.mem_items.mpr hv, ?_⟩
      rw [webhookSecretKey, Text.stripPrefix_append, Option.bind_some, htenant, if_neg hne]
    rcases h with ⟨s, hs, hhas⟩ | ⟨hhas, hplain⟩
    · exact hkey _ hhas (tenantOfKey_append hs)
    · exact hkey t hhas (tenantOfKey_of_plain fun s hs => endsWith_eq_false_iff.mp (hplain s hs))

/-- A tenant is seeded if it is found and has a secret for GitHub, GitLab or Slack. -/
theorem exists_mem_seeds_iff : (∃ config ∈ seeds map, config.tenantId = t) ↔
    t ∈ tenantIds map ∧ ∃ p ∈ [SourceProvider.github, .gitlab, .slack], ∃ k ∈ keys t p, map.has k := by
  have hsecrets : ((tenantConfig map t ["grp_eng"]).githubWebhookSecret.isSome ||
      (tenantConfig map t ["grp_eng"]).gitlabWebhookSecret.isSome ||
      (tenantConfig map t ["grp_eng"]).slackSigningSecret.isSome) = true ↔
      ∃ p ∈ [SourceProvider.github, .gitlab, .slack], ∃ k ∈ keys t p, map.has k := by
    rw [Bool.or_eq_true, Bool.or_eq_true, or_assoc]
    simp only [List.exists_mem_cons_iff, List.not_mem_nil, false_and, exists_false, or_false]
    exact or_congr (isSome_secretFor_iff (p := .github))
      (or_congr (isSome_secretFor_iff (p := .gitlab)) (isSome_secretFor_iff (p := .slack)))
  rw [← hsecrets]
  constructor
  · rintro ⟨config, hconfig, rfl⟩
    rw [seeds, List.mem_filter, List.mem_map] at hconfig
    obtain ⟨⟨t, ht, rfl⟩, hsome⟩ := hconfig
    exact ⟨ht, hsome⟩
  · rintro ⟨ht, hsome⟩
    exact ⟨_, List.mem_filter.mpr ⟨List.mem_map_of_mem ht, hsome⟩, rfl⟩

/-- The keys under which a tenant is seeded. -/
theorem seeded_iff : (∃ config ∈ seeds map, config.tenantId = t) ↔ t ≠ "" ∧
    ((∃ s ∈ ["_GITHUB", "_GITLAB", "_SLACK"], map.has (webhookSecretKey (t ++ s))) ∨
      (map.has (webhookSecretKey t) ∧ ((∀ s ∈ providerSuffixes, Text.endsWith t s = false) ∨
        ∃ s ∈ providerSuffixes, map.has (webhookSecretKey (t ++ s))))) := by
  have halways : ∀ t ∈ ["ten_github", "ten_demo"], t ≠ "" ∧ ∀ s ∈ providerSuffixes, Text.endsWith t s = false := by
    decide
  rw [exists_mem_seeds_iff, mem_tenantIds_iff]
  constructor
  · rintro ⟨hfound, p, hp, k, hk, hhas⟩
    have hne : t ≠ "" := by
      rcases hfound with ht | ⟨hne, -⟩
      · exact (halways t ht).1
      · exact hne
    refine ⟨hne, ?_⟩
    rcases mem_keys_iff.mp hk with ⟨s, hs, rfl⟩ | ⟨-, rfl⟩
    · refine .inl ⟨s, ?_, hhas⟩
      revert hp s
      cases p <;> simp [suffix]
    · refine .inr ⟨hhas, ?_⟩
      rcases hfound with ht | ⟨-, hsome | ⟨-, hplain⟩⟩
      · exact .inl (halways t ht).2
      · exact .inr hsome
      · exact .inl hplain
  · rintro ⟨hne, ⟨s, hs, hhas⟩ | ⟨hhas, hplain⟩⟩
    · have hall : ∀ s ∈ ["_GITHUB", "_GITLAB", "_SLACK"], s ∈ providerSuffixes ∧
          ∃ p ∈ [SourceProvider.github, .gitlab, .slack], suffix p = some s := by decide
      obtain ⟨hsuffix, p, hp, hps⟩ := hall s hs
      exact ⟨.inr ⟨hne, .inl ⟨s, hsuffix, hhas⟩⟩, p, hp, _, mem_keys_iff.mpr (.inl ⟨s, hps, rfl⟩), hhas⟩
    · refine ⟨.inr ⟨hne, ?_⟩, .github, List.mem_cons_self, _, mem_keys_iff.mpr (.inr ⟨rfl, rfl⟩), hhas⟩
      rcases hplain with hplain | hsome
      · exact .inr ⟨hhas, hplain⟩
      · exact .inl hsome

/-- Two tenants read one key of the file only where one name is the other with a suffix. -/
theorem apart_of_names (h : ∀ t ∈ tenants, ∀ s ∈ providerSuffixes, t ++ s ∈ tenants →
    map.has (webhookSecretKey (t ++ s)) = false) {t' : String} {p p' : SourceProvider} {k : String}
    (ht : t ∈ tenants) (ht' : t' ∈ tenants) (hk : k ∈ keys t p) (hk' : k ∈ keys t' p') (hhas : map.has k) :
    t = t' ∧ p = p' := by
  rcases mem_keys_iff.mp hk with ⟨s, hs, rfl⟩ | ⟨rfl, rfl⟩ <;>
    rcases mem_keys_iff.mp hk' with ⟨s', hs', heq⟩ | ⟨rfl, heq⟩
  · obtain ⟨rfl, rfl⟩ := append_suffix_inj (mem_providerSuffixes_iff.mpr ⟨p, hs⟩)
      (mem_providerSuffixes_iff.mpr ⟨p', hs'⟩) (webhookSecretKey_injective heq)
    exact ⟨rfl, suffix_injective hs hs'⟩
  · obtain rfl := webhookSecretKey_injective heq
    rw [h t ht s (mem_providerSuffixes_iff.mpr ⟨p, hs⟩) ht'] at hhas
    cases hhas
  · obtain rfl := webhookSecretKey_injective heq
    rw [h t' ht' s' (mem_providerSuffixes_iff.mpr ⟨p', hs'⟩) ht] at hhas
    cases hhas
  · exact ⟨webhookSecretKey_injective heq, rfl⟩

/-- The secrets are separated where the names can be told apart and each tenant is found. -/
theorem separated_iff (map : SecretsMap) (tenants : Set String) : Separated map tenants ↔ Separable map tenants := by
  constructor
  · intro h
    constructor
    case names =>
      intro t ht s hs hts
      obtain ⟨p, hp⟩ := mem_providerSuffixes_iff.mp hs
      rw [Bool.eq_false_iff]
      intro hhas
      obtain ⟨heq, -⟩ := h.apart t ht (t ++ s) hts p .github _ (mem_keys_iff.mpr (.inl ⟨s, hp, rfl⟩))
        (mem_keys_iff.mpr (.inr ⟨rfl, rfl⟩)) hhas
      have hlong : ∀ s ∈ providerSuffixes, s.length ≠ 0 := by decide
      have hlen := congrArg String.length heq
      rw [String.length_append] at hlen
      exact hlong s hs (by omega)
    case found =>
      rintro t ht ⟨p, hp⟩
      exact seeded_iff.mp (h.seeded t ht [] ⟨p, isSome_secretFor_iff.mpr hp⟩)
  · intro h
    constructor
    case overlay =>
      intro t _ groups p
      exact secretFor_tenantConfig map t groups p
    case apart =>
      intro t ht t' ht' p p' k hk hk' hhas
      exact apart_of_names h.names ht ht' hk hk' hhas
    case own =>
      intro t ht t' ht' hne p p' k hsource hk'
      obtain ⟨hk, hhas⟩ := get_of_sourceKey hsource
      exact hne (apart_of_names h.names ht ht' hk hk' hhas).1
    case seeded =>
      rintro t ht groups ⟨p, hp⟩
      exact seeded_iff.mpr (h.found t ht ⟨p, isSome_secretFor_iff.mp hp⟩)

/-- A tenant reads the GitLab secret of another one as its own for GitHub, and a tenant with a secret for Jira alone is
not seeded. -/
theorem not_separated :
    (¬ Separated (KMap.put ∅ "WEBHOOK_SECRET_acme_GITLAB" "s3cret") {"acme", "acme_GITLAB"}) ∧
      ¬ Separated (KMap.put ∅ "WEBHOOK_SECRET_acme_JIRA" "s3cret") {"acme"} := by
  constructor
  · intro h
    have hsame := h.apart "acme" (.inl rfl) "acme_GITLAB" (.inr rfl) .gitlab .github "WEBHOOK_SECRET_acme_GITLAB"
      (by decide) (by decide) (by decide)
    cases hsame.2
  · intro h
    obtain ⟨config, hconfig, hid⟩ := h.seeded "acme" rfl [] ⟨.jira, by decide⟩
    have hseeds : ∀ config ∈ seeds (KMap.put ∅ "WEBHOOK_SECRET_acme_JIRA" "s3cret"), config.tenantId ≠ "acme" := by
      decide +kernel
    exact hseeds config hconfig hid

end Tenants

end TenantSecrets

end AiManager.Telemetry
