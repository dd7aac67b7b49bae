import Rszigbee.Moves

/-! What a subscriber can rebuild from the events: who is in the device table under which
short address, and how each device's reachability got where it is. -/
namespace Rszigbee

variable {E : Engine}

namespace Event

/-- A subscriber's copy of the addresses, brought up to date by one event. -/
def replay (addresses : Ieee → Option Nwk) : Event E → Ieee → Option Nwk
  | .deviceJoined ieee nwk => Function.update addresses ieee (some nwk)
  | .deviceLeft ieee _ => Function.update addresses ieee none
  | .deviceAddressChanged ieee _ current => Function.update addresses ieee (some current)
  | _ => addresses

/-- A subscriber's copy of one device's reachability; a change has to start from it. A device
that joins starts unknown, and one that is not in the table has none. -/
def follow (device : Ieee) (known : Option Reachability) : Event E → Option (Option Reachability)
  | .deviceJoined ieee _ => if ieee = device then some (some .unknown) else some known
  | .deviceLeft ieee _ => if ieee = device then some none else some known
  | .reachabilityChanged ieee previous current _ =>
    if ieee = device then if known = some previous then some (some current) else none
    else some known
  | _ => some known

theorem replay_neutral {event : Event E} (h : event.isNeutral = true)
    (addresses : Ieee → Option Nwk) : event.replay addresses = addresses := by
  cases event <;> simp_all [isNeutral,replay]

theorem follow_neutral {event : Event E} (h : event.isNeutral = true) (device : Ieee)
    (known : Option Reachability) : event.follow device known = some known := by
  cases event <;> simp_all [isNeutral,follow]

end Event

namespace View

def status (v : View E) (device : Ieee) : Option Reachability :=
  (v.devices.get device).map fun e => e.reachability.state

/-- The events added since `v` tell what became of the addresses and of every device's
reachability. -/
def Told (v v' : View E) : Prop :=
  ∃ emitted, v'.events = v.events ++ emitted ∧
    emitted.foldl Event.replay v.devices.nwkOf = v'.devices.nwkOf ∧
    ∀ device, emitted.foldlM (Event.follow device) (v.status device) = some (v'.status device)

namespace Told

theorem refl (v : View E) : Told v v := ⟨[],by simp,rfl,fun _ => rfl⟩

theorem trans {v w x : View E} (h : Told v w) (h' : Told w x) : Told v x := by
  obtain ⟨first,hfirst,haddr,hstate⟩ := h
  obtain ⟨rest,hrest,haddr',hstate'⟩ := h'
  refine ⟨first ++ rest,?_,?_,fun device => ?_⟩
  · rw [hrest,hfirst,List.append_assoc]
  · rw [List.foldl_append,haddr,haddr']
  · rw [List.foldlM_append,hstate device]
    exact hstate' device

/-- Nothing to tell. -/
theorem of_same {v v' : View E} (hevents : v'.events = v.events)
    (haddr : v'.devices.nwkOf = v.devices.nwkOf) (hstate : v'.status = v.status) : Told v v' := by
  refine ⟨[],?_,haddr.symm,fun device => ?_⟩
  · rw [hevents,List.append_nil]
  · rw [hstate]
    rfl

/-- One event to tell it by. -/
theorem of_event {v v' : View E} (event : Event E) (hevents : v'.events = v.events ++ [event])
    (haddr : v'.devices.nwkOf = event.replay v.devices.nwkOf)
    (hstate : ∀ device, event.follow device (v.status device) = some (v'.status device)) :
    Told v v' := by
  refine ⟨[event],hevents,haddr.symm,fun device => ?_⟩
  rw [List.foldlM_cons,hstate device]
  rfl

theorem note (v : View E) {event : Event E} (h : event.isNeutral = true) : Told v (v.note event) :=
  of_event event rfl (Event.replay_neutral h _).symm fun device => Event.follow_neutral h device _

theorem modify (v : View E) (ieee : Ieee) {f : Entry → Entry}
    (hnwk : ∀ e, (f e).info.nwk = e.info.nwk)
    (hstate : ∀ e, (f e).reachability.state = e.reachability.state) : Told v (v.modify ieee f) := by
  refine of_same rfl ?_ ?_
  · funext device
    exact Inventory.map_get_modify _ _ _ hnwk
  · funext device
    exact Inventory.map_get_modify _ _ _ hstate

theorem persist (v : View E) (ieee : Ieee) (answer : WriteAnswer) :
    Told v (v.persist ieee answer) := by
  refine of_same (persist_events _ _ _) ?_ ?_
  · rw [persist_devices]
  · funext device
    rw [status,persist_devices,status]

theorem assess (v : View E) {ieee : Ieee} {e : Entry} (h : v.devices.get ieee = some e)
    (a : Assessment) (evidence : Evidence) :
    Told v (v.assess ieee e.reachability.state a evidence) := by
  have haddr : (v.modify ieee a.write).devices.nwkOf = v.devices.nwkOf := by
    funext device
    exact Inventory.map_get_modify _ _ _ fun _ => rfl
  have hstatus (device : Ieee) : (v.modify ieee a.write).status device =
      if device = ieee then some a.verdict else v.status device := by
    have hget := Inventory.modify_get v.devices ieee device a.write
    rw [status,View.modify,hget]
    by_cases hd : device = ieee
    · rw [if_pos hd,if_pos hd,h]
      rfl
    · rw [if_neg hd,if_neg hd,status]
  have hold : v.status ieee = some e.reachability.state := by
    rw [status,h]
    rfl
  rw [View.assess]
  by_cases hv : e.reachability.state = a.verdict
  · have hsame : Told v (v.modify ieee a.write) := by
      refine of_same rfl haddr ?_
      funext device
      rw [hstatus]
      by_cases hd : device = ieee
      · rw [if_pos hd,hd,hold,hv]
      · rw [if_neg hd]
    simpa [hv] using hsame
  · have hchange : Told v ((v.modify ieee a.write).note
        (.reachabilityChanged ieee e.reachability.state a.verdict evidence)) := by
      refine of_event _ rfl haddr fun device => ?_
      have hnote : ((v.modify ieee a.write).note
          (.reachabilityChanged ieee e.reachability.state a.verdict evidence)).status device =
          (v.modify ieee a.write).status device := rfl
      rw [hnote,hstatus,Event.follow]
      by_cases hd : device = ieee
      · subst hd
        rw [if_pos rfl,if_pos hold,if_pos rfl]
      · rw [if_neg (Ne.symm hd),if_neg hd]
    simpa [hv] using hchange

theorem aside {allowed : Ieee → Mark → Prop} {v v' : View E} (h : Aside allowed v v') :
    Told v v' := by
  cases h with
  | @mark ieee m h =>
    refine modify v ieee ?_ ?_
    · intro e
      cases m <;> rfl
    · intro e
      cases m with
      | transmitted time result => cases result <;> rfl
      | _ => rfl
  | assess he a evidence => exact assess v he a evidence
  | note hn => exact note v hn

theorem path {allowed : Ieee → Mark → Prop} {v v' : View E} (h : Path allowed v v') :
    Told v v' :=
  h.invariant (P := Told v) (fun _ _ hlast ih => ih.trans (aside hlast)) (refl v)

theorem readdress (v : View E) (ieee : Ieee) (nwk : Nwk) : Told v (v.readdress ieee nwk) := by
  rw [View.readdress]
  by_cases hsame : v.devices.nwkOf ieee = none ∨ v.devices.nwkOf ieee = some nwk
  · rw [Inventory.setNwk_unchanged _ _ _ hsame]
    exact refl v
  · rw [not_or] at hsame
    obtain ⟨hknown,hmoved⟩ := hsame
    obtain ⟨p,hp⟩ := Option.ne_none_iff_exists'.mp hknown
    obtain ⟨e,hg,he⟩ := Inventory.nwkOf_eq_some.mp hp
    have hm : p ≠ nwk := fun h => hmoved (h ▸ hp)
    have hget := Inventory.setNwk_get v.devices ieee hg (he ▸ hm)
    rw [Inventory.setNwk_changed _ _ hg he hm] at hget ⊢
    dsimp only at hget ⊢
    refine of_event (.deviceAddressChanged ieee p nwk) rfl ?_ fun device => ?_
    · funext device
      rw [Event.replay,View.note,Inventory.nwkOf,hget,Function.update_apply]
      by_cases hd : device = ieee
      · rw [if_pos hd,if_pos hd]
        rfl
      · rw [if_neg hd,if_neg hd,Inventory.nwkOf]
    · have hkept : Event.follow device (v.status device)
          (.deviceAddressChanged (E := E) ieee p nwk) = some (v.status device) := rfl
      rw [hkept,status,View.note,status,hget]
      by_cases hd : device = ieee
      · rw [if_pos hd,hd,hg]
        rfl
      · rw [if_neg hd]

theorem enrol (v : View E) (ieee : Ieee) (nwk : Nwk) (wall : SystemTime) :
    Told v (v.enrol ieee nwk wall) := by
  have hget (device : Ieee) := Inventory.insert_get v.devices device (newEntry ieee nwk wall)
  have hieee : (newEntry ieee nwk wall).info.ieee = ieee := rfl
  refine of_event (.deviceJoined ieee nwk) rfl ?_ fun device => ?_
  · funext device
    rw [Event.replay,View.enrol,View.note,Inventory.nwkOf,hget,hieee,Function.update_apply]
    by_cases hd : device = ieee
    · rw [if_pos hd,if_pos hd]
      rfl
    · rw [if_neg hd,if_neg hd,Inventory.nwkOf]
  · rw [Event.follow,View.enrol,View.note,status,status,hget,hieee]
    by_cases hd : device = ieee
    · rw [if_pos hd,if_pos hd.symm]
      rfl
    · rw [if_neg hd,if_neg (Ne.symm hd)]

theorem expel (v : View E) (ieee : Ieee) (answer : WriteAnswer) : Told v (v.expel ieee answer) := by
  have hget (device : Ieee) := Inventory.remove_get v.devices ieee device
  refine of_event (.deviceLeft ieee .unknown) rfl ?_ fun device => ?_
  · funext device
    rw [Event.replay,View.expel,View.note,Inventory.nwkOf,hget,Function.update_apply]
    by_cases hd : device = ieee
    · rw [if_pos hd,if_pos hd]
      rfl
    · rw [if_neg hd,if_neg hd,Inventory.nwkOf]
  · rw [Event.follow,View.expel,View.note,status,status,hget]
    by_cases hd : device = ieee
    · rw [if_pos hd,if_pos hd.symm]
      rfl
    · rw [if_neg hd,if_neg (Ne.symm hd)]

theorem arrive (v : View E) (ieee : Ieee) (nwk : Nwk) (wall : SystemTime) :
    Told v (v.arrive ieee nwk wall) := by
  rw [View.arrive]
  split
  · exact (readdress v ieee nwk).trans (note _ rfl)
  · exact enrol v ieee nwk wall

theorem spawn (v : View E) (ieee : Ieee) (reply : Option ℕ) : Told v (v.spawn ieee reply) :=
  of_same rfl rfl rfl

theorem invite (v : View E) (ieee : Ieee) : Told v (v.invite ieee) := by
  rw [View.invite]
  split
  · exact spawn v ieee none
  · exact refl v

theorem edit (v : View E) (ieee : Ieee) {f : Entry → Entry} (hf : Edit f) :
    Told v (v.modify ieee f) := by
  refine modify v ieee hf.nwk fun e => ?_
  obtain ⟨sleepy,h⟩ := hf.reachability e
  rw [h]

theorem rewrites {answers : WriteAnswer → Prop} {ieee : Ieee} {v v' : View E}
    (h : Rewrites answers ieee v v') : Told v v' := by
  refine h.invariant (P := Told v) (fun w w' hlast ih => ih.trans ?_) (refl v)
  cases hlast with
  | edit hf _ => exact (edit w ieee hf).trans (persist _ _ _)
  | note hn => exact note w hn

end Told

end View

namespace Task

open View

/-- Every turn tells what it does to the table. -/
theorem told_step (t : Task E) (i : Input E) : Told t.view (t.step i).view := by
  by_cases h : t.stopped = true
  · rw [step_stopped h]
    exact .refl _
  · have hmove := move (by simpa using h) i
    generalize (t.step i).view = v at hmove
    cases hmove with
    | aside _ hpath => exact .path hpath
    | joined _ hpath =>
      have hseen := (Told.arrive _ _ _ _).trans (.path hpath)
      exact (hseen.trans (.persist _ _ _)).trans (.invite _ _)
    | left _ => exact .expel _ _ _
    | frame _ hpath => exact (Told.readdress _ _ _).trans (.path hpath)
    | interview _ => exact .spawn _ _ _
    | update _ hf hrewrites =>
      exact ((Told.edit _ _ hf).trans (.persist _ _ _)).trans (.rewrites hrewrites)

theorem told_run (t : Task E) (is : List (Input E)) : Told t.view (Runs.run step t is).view :=
  Runs.run_invariant step (P := fun t' => Told t.view t'.view)
    (fun t' i ih => ih.trans (told_step t' i)) (.refl _) is

/-- Every device starts out with unknown reachability. -/
theorem status_start (config : TaskConfig E) (env : Env) (device : Ieee) :
    (start config env).view.status device =
      ((start config env).devices.get device).map fun _ => .unknown := by
  have hstart : ∀ i e, (start config env).devices.get i = some e → e.reachability.state = .unknown :=
    each_start (fun _ => rfl) fun _ _ => rfl
  have hdevices : (start config env).view.devices = (start config env).devices := rfl
  rw [status,hdevices]
  cases hg : (start config env).devices.get device with
  | none => rfl
  | some e =>
    have hunknown := hstart device e hg
    simp [hunknown]

/-- Replaying the joins, leaves and address changes of a run over the table at its start gives
the table's addresses, and every device's reachability changes follow one another from
unknown. -/
theorem events_determine_table (config : TaskConfig E) (env : Env) (is : List (Input E)) :
    let t := start config env
    let t' := Runs.run step t is
    ∃ emitted, t'.events = t.events ++ emitted ∧
      emitted.foldl Event.replay t.devices.nwkOf = t'.devices.nwkOf ∧
      ∀ device, emitted.foldlM (Event.follow device)
        ((t.devices.get device).map fun _ => .unknown) =
          some ((t'.devices.get device).map fun e => e.reachability.state) := by
  obtain ⟨emitted,hevents,haddr,hstate⟩ := told_run (start config env) is
  refine ⟨emitted,hevents,haddr,fun device => ?_⟩
  rw [← status_start]
  exact hstate device

end Task
end Rszigbee
