import Rszigbee.Jams

/-! A transmission that returned, over the connection: what it says of the NCP. -/
namespace Rszigbee
namespace Ember
namespace Link

variable {α : Type} (z : Rsezsp)

section Handing

variable {gone : EzspError}

/-- The one command of a frame that fits, and what follows its answer. -/
theorem handed_answers (adapter : EmberAdapter) (unanswered refused : String) (c : Send)
    {b r : α} {heard : List (Σ q, EzspCommand.Response q)}
    (h : (ofSend (do
      let _ ← (.done adapter.connection : Transmission UInt8)
      hand z unanswered refused c
      pure b)).Follows heard (.done (.ok r))) :
    r = b ∧ ∃ status, z.isOk status = true ∧ heard = [⟨.send c,.ok status⟩] := by
  cases hsession : adapter.connection with
  | error e =>
    rw [hsession] at h
    have hdone := h.of_done.2
    cases hdone
  | ok version =>
    rw [hsession] at h
    rcases Dialogue.Follows.of_ask h with ⟨-,hask⟩ | ⟨answer,rest,rfl,hrest⟩
    · cases hask
    · cases answer with
      | error e =>
        have hdone := hrest.of_done.2
        cases hdone
      | ok status =>
        change (Dialogue.lift EzspCommand.send (fun _ r => r)
          (Dialogue.bind (.done (check z refused status)) fun _ => .done (.ok b)) :
            Method α).Follows rest _ at hrest
        cases hok : z.isOk status with
        | false =>
          rw [check,if_neg (by simp [hok])] at hrest
          have hdone := hrest.of_done.2
          cases hdone
        | true =>
          rw [check,if_pos hok] at hrest
          obtain ⟨rfl,hdone⟩ := hrest.of_done
          cases hdone
          exact ⟨rfl,status,hok,rfl⟩

/-- When `send_zcl` has returned success, in whatever company and however the connection has
fared since, the NCP was handed exactly one frame by it, the one the request stands for, and
took it. -/
theorem sendZcl_handed {s : State (Option ZclRx)} (h : Reachable gone s) {i : ℕ}
    {c : Serving.Caller EzspCommand EzspCommand.Response AdapterError (Option ZclRx)}
    (hc : s.connection.callers[i]? = some c) (hstays : c.gone = false)
    {adapter : EmberAdapter} {tag : MessageTag} {request : ZclTx} {r : Option ZclRx}
    (hmethod : c.method = ofSend (adapter.sendZcl z tag request).2)
    (hdone : c.program = .done (.ok r)) :
    r = none ∧ request.frame.length ≤ maxApsPayload ∧ ∃ status, z.isOk status = true ∧
      s.connection.answersTo i =
        [⟨.send (EmberAdapter.zclFrame tag.next request),.ok status⟩] := by
  have hserving := h.inv.serving
  have htold := hserving.told i c hc
  rw [hmethod,hdone] at htold
  obtain ⟨refused,hheard,-⟩ := hserving.answered i c hc hstays
  have hhanded : r = none ∧ request.frame.length ≤ maxApsPayload ∧ ∃ status,
      z.isOk status = true ∧
        c.heard = [⟨.send (EmberAdapter.zclFrame tag.next request),.ok status⟩] := by
    by_cases hlong : request.frame.length > maxApsPayload
    · rw [EmberAdapter.sendZcl,if_pos hlong] at htold
      have herror := htold.of_done.2
      cases herror
    · rw [EmberAdapter.sendZcl,if_neg hlong] at htold
      rw [EmberAdapter.zclFrame]
      have hfits := Nat.le_of_not_lt hlong
      cases hdest : request.dest with
      | unicast ieee nwk =>
        simp only [hdest] at htold
        obtain ⟨hr,htaken⟩ := handed_answers z adapter _ _ _ htold
        exact ⟨hr,hfits,htaken⟩
      | group group =>
        simp only [hdest] at htold
        obtain ⟨hr,htaken⟩ := handed_answers z adapter _ _ _ htold
        exact ⟨hr,hfits,htaken⟩
      | broadcast address =>
        simp only [hdest] at htold
        obtain ⟨hr,htaken⟩ := handed_answers z adapter _ _ _ htold
        exact ⟨hr,hfits,htaken⟩
  obtain ⟨hr,hfits,status,hok,hone⟩ := hhanded
  refine ⟨hr,hfits,status,hok,?_⟩
  rw [hone] at hheard
  cases hanswers : s.connection.answersTo i with
  | nil =>
    -- a caller that was refused heard an error, not a status
    rw [hanswers,List.nil_append] at hheard
    cases refused with
    | nil => cases hheard
    | cons q rest =>
      have hfirst := (List.cons.inj hheard).1
      cases q <;> cases hfirst
  | cons answer rest =>
    rw [hanswers,List.cons_append,List.cons.injEq] at hheard
    have hrest : rest = [] := (List.append_eq_nil_iff.mp hheard.2.symm).1
    rw [hrest,hheard.1]

theorem transmitted_handed : ∃ status, rsezsp.isOk status = true ∧ transmitted.answersTo 0 =
    [⟨.send (EmberAdapter.zclFrame ⟨8⟩ request),.ok status⟩] := by
  have hreturned := @sendZcl_handed rsezsp "closed" _ reachable_transmitted 0 _ rfl rfl connected
    ⟨7⟩ request _ rfl rfl
  exact hreturned.2.2

end Handing
end Link
end Ember
end Rszigbee
