import Rszigbee.Inventory

/-! One device under `SilencePolicy`: the verdict on it, when it was last seen and when it is
looked at again. What is seen is dated by the wall clock, what is scheduled by the monotonic
clock. -/
namespace Rszigbee

/-- The two clocks, read together. -/
structure Clocks where
  now : Instant
  wall : SystemTime

/-- What the policy goes by and decides. -/
structure Watch where
  verdict : Reachability
  lastSeen : Option SystemTime
  next : NextCheck

def Entry.watch (e : Entry) : Watch := ⟨e.reachability.state,e.reachability.lastSeen,e.nextCheck⟩

namespace Watch

variable {limit : Duration}

def hear (wall : SystemTime) (w : Watch) : Watch := { w with lastSeen := some wall }

/-- An assessment. -/
def look (limit : Duration) (c : Clocks) (w : Watch) : Watch :=
  match w.lastSeen with
  | none => { w with verdict := .unknown, next := .awaitTraffic }
  | some seen =>
    if c.wall < seen then { w with verdict := .unknown, next := .awaitTraffic }
    else if seen + limit ≤ c.wall then
      { w with verdict := .unreachable, next := .awaitTraffic }
    else { w with
      verdict := .reachable
      next := .reassess (c.now + (limit - (c.wall - seen).toNat)) }

/-- The policy's assessment, written into an entry. -/
theorem watch_silencePolicy (limit : Duration) (now : Instant) (wall : SystemTime) (e : Entry) :
    Entry.watch { e with
      reachability := { e.reachability with
        state := (silencePolicy limit ⟨e.info,e.reachability,now,wall⟩).verdict }
      nextCheck := (silencePolicy limit ⟨e.info,e.reachability,now,wall⟩).next } =
    e.watch.look limit ⟨now,wall⟩ := by
  simp only [Entry.watch,look,silencePolicy,ReachabilityInfo.silence]
  cases e.reachability.lastSeen with
  | none => rfl
  | some seen =>
    simp only [Option.bind_some]
    by_cases hback : wall < seen
    · rw [if_pos hback,if_neg (not_le.mpr hback)]
    · rw [if_neg hback,if_pos (not_lt.mp hback)]
      dsimp only
      by_cases hlong : seen + limit ≤ wall
      · have hover : ¬ (wall - seen).toNat < limit := by grind
        rw [if_pos hlong,if_neg hover]
      · have hunder : (wall - seen).toNat < limit := by grind
        rw [if_neg hlong,if_pos hunder]

/-- What an assessment leaves behind: only a reachable device has been seen and is looked at
again, at a time set for it. -/
structure Kept (heard : Option Clocks) (w : Watch) : Prop where
  dated : ∀ c, heard = some c → w.lastSeen = some c.wall
  seen : w.verdict = .reachable → w.lastSeen ≠ none
  scheduled : w.verdict = .reachable → ∃ due, w.next = .reassess due
  unscheduled : w.verdict ≠ .reachable → w.next = .awaitTraffic

theorem Kept.look {heard : Option Clocks} {w : Watch}
    (h : ∀ c, heard = some c → w.lastSeen = some c.wall) (c : Clocks) :
    (w.look limit c).Kept heard := by
  unfold Watch.look
  split
  · exact ⟨h,by simp,by simp,by simp⟩
  · rename_i seen hseen
    split
    · exact ⟨h,by simp,by simp,by simp⟩
    · split
      · exact ⟨h,by simp,by simp,by simp⟩
      · exact ⟨h,by simp [hseen],by simp,by simp⟩

end Watch
end Rszigbee
