import Rszigbee.Filters
import Rszigbee.Names

/-! The topics a gateway publishes on, and those it reads. -/
namespace Rszigbee

/-- `strip_prefix`. -/
def stripPrefix (start s : String) : Option String :=
  (s.toList.dropPrefix? start.toList).map String.ofList

theorem stripPrefix_eq_some {start s rest : String} :
    stripPrefix start s = some rest ↔ s = start ++ rest := by
  rw [stripPrefix,Option.map_eq_some_iff]
  constructor
  · rintro ⟨cs,hcs,rfl⟩
    obtain ⟨start',hs,hstart⟩ := List.dropPrefix?_eq_some_iff.mp hcs
    rw [← String.toList_inj,hs,eq_of_beq hstart]
    simp
  · rintro rfl
    refine ⟨rest.toList,?_,String.ofList_toList⟩
    rw [String.toList_append]
    exact List.dropPrefix?_append_of_beq _ (beq_self_eq_true _)

structure Topics where
  base : String
  deriving DecidableEq

namespace Topics

/-- Slashes at the end are trimmed. -/
def new (base : String) : Topics :=
  ⟨.ofList (base.toList.reverse.dropWhile fun c => c = '/').reverse⟩

variable (t : Topics)

def device (ieee : Ieee) : String := t.base ++ "/" ++ ieee.show
def deviceSet (ieee : Ieee) : String := t.base ++ "/" ++ ieee.show ++ "/set"
def deviceGet (ieee : Ieee) : String := t.base ++ "/" ++ ieee.show ++ "/get"
def bridgeState : String := t.base ++ "/bridge/state"
def bridgeEvent : String := t.base ++ "/bridge/event"
def bridgeRequest (name : String) : String := t.base ++ "/bridge/request/" ++ name
def bridgeResponse (name : String) : String := t.base ++ "/bridge/response/" ++ name

/-- What the gateway subscribes to. -/
def subscriptions : List String :=
  [t.base ++ "/+/set",t.base ++ "/+/get",t.base ++ "/bridge/request/+"]

/-- The part after the base, if the base ends at a level. -/
def strip (topic : String) : Option String := (stripPrefix t.base topic).bind (stripPrefix "/")

variable {t}

theorem mem_base_new {base : String} {c : Char} (h : c ∈ (new base).base.toList) :
    c ∈ base.toList := by
  rw [new,String.toList_ofList,List.mem_reverse] at h
  exact List.mem_reverse.mp ((List.dropWhile_suffix _).subset h)

theorem strip_eq_some {topic rest : String} :
    t.strip topic = some rest ↔ topic = t.base ++ "/" ++ rest := by
  rw [strip,Option.bind_eq_some_iff]
  simp only [stripPrefix_eq_some]
  constructor
  · rintro ⟨s,rfl,rfl⟩
    rw [String.append_assoc]
  · rintro rfl
    exact ⟨_,String.append_assoc .. ,rfl⟩

end Topics
end Rszigbee
