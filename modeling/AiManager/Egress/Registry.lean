import Mathlib.Data.List.TakeWhile
import AiManager.Lib.KMap
import AiManager.Lib.Text

/-! # Tools and secrets

A tool has the hosts that it may call, and the name of the secret that is injected for it. -/

namespace AiManager.Egress

open Lib

structure ToolConfig where
  hosts : List String
  secret : String
  header : String := "Authorization"
  /-- stands before the secret in the header -/
  valuePrefix : String := ""
  deriving DecidableEq

/-- The hosts are in lower case. -/
structure ToolRegistry where
  tools : KMap String ToolConfig
  normalized : ∀ tool config, tools.get tool = some config → ∀ h ∈ config.hosts, Text.toAsciiLowercase h = h

namespace ToolRegistry

def normalize (config : ToolConfig) : ToolConfig :=
  { config with hosts := config.hosts.map Text.toAsciiLowercase }

theorem get_normalize (tools : KMap String ToolConfig) (tool : String) :
    (tools.rekey some normalize).get tool = (tools.get tool).map normalize :=
  KMap.get_rekey rfl fun _ _ h => Option.some.inj h

def new (tools : KMap String ToolConfig) : ToolRegistry where
  tools := tools.rekey some normalize
  normalized := by
    intro tool config h host hhost
    rw [get_normalize, Option.map_eq_some_iff] at h
    obtain ⟨raw, -, rfl⟩ := h
    obtain ⟨host', -, rfl⟩ := List.mem_map.mp hhost
    exact Text.toAsciiLowercase_toAsciiLowercase host'

def get (r : ToolRegistry) (tool : String) : Option ToolConfig := r.tools.get tool

/-- The host without a port. -/
def hostOnly (host : String) : String := (Text.split host ':').head?.getD host

def hostAllowed (r : ToolRegistry) (tool host : String) : Bool :=
  let hostOnly := hostOnly (Text.toAsciiLowercase host)
  ((r.get tool).map fun c => c.hosts.any fun h => h = hostOnly).getD false

theorem hostOnly_eq (host : String) : hostOnly host = String.ofList (host.toList.takeWhile (· ≠ ':')) := by
  unfold hostOnly
  rw [Text.head_split, Option.getD_some]

theorem hostOnly_of_plain {host : String} (h : ':' ∉ host.toList) : hostOnly host = host := by
  have hall : host.toList.takeWhile (· ≠ ':') = host.toList := by
    refine List.takeWhile_eq_self_iff.mpr fun c hc => decide_eq_true ?_
    rintro rfl
    exact h hc
  rw [hostOnly_eq, hall, String.ofList_toList]

theorem hostAllowed_iff {r : ToolRegistry} {tool host : String} {config : ToolConfig} (hget : r.get tool = some config)
    (hlower : Text.toAsciiLowercase host = host) : r.hostAllowed tool host = true ↔ hostOnly host ∈ config.hosts := by
  unfold hostAllowed
  rw [hget, hlower]
  simp

end ToolRegistry

structure SecretsStore where
  map : KMap String String

namespace SecretsStore

def get (s : SecretsStore) (name : String) : Option String := s.map.get name

def values (s : SecretsStore) : List String := s.map.values

end SecretsStore

end AiManager.Egress
