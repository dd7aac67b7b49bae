import Rszigbee.Published

/-! What is published of a device is its whole history: all of its reports so far, the later
over the earlier, and nobody else's. -/
namespace Rszigbee

namespace StateChanges

/-- Reports laid over one another, the later on top. -/
def mergeAll (deltas : List StateChanges) : StateChanges := deltas.foldl merge new

/-- The fields a set of changes is published as. -/
def fields (c : StateChanges) : Ordered String Json :=
  .ofList (c.entries.map fun e => (e.1.name,rendered e.1.name e.2))

theorem get_merge (c other : StateChanges) (id : CapabilityId) :
    (c.merge other).get id = (other.get id).or (c.get id) := by
  rw [merge,Tuya.get_setAll,Tuya.lastSet,Tuya.find?_reverse_of_nodup id other.distinct]
  simp [get]

theorem mergeAll_concat (deltas : List StateChanges) (c : StateChanges) :
    mergeAll (deltas ++ [c]) = (mergeAll deltas).merge c := by
  simp [mergeAll]

theorem get_fields (c : StateChanges) (name : String) :
    c.fields.get name = (c.get ⟨name⟩).map (rendered name) := by
  have hfields : c.fields = DeviceState.applyEntries .empty c.entries := by
    rw [fields,Ordered.ofList,List.foldl_map]
    rfl
  rw [hfields,StateStore.get_applyEntries c.distinct,get,Option.map_map]
  simp
  rfl

end StateChanges

namespace StateStore

variable {resolve : DeviceInfo → Option Definition} {debug : DebugText} {tuya : TuyaSide}

/-- All that a device reported among some events, in order. -/
def deltasOf (ieee : Ieee) (es : List (Event (Engine.ofDefinitions resolve debug tuya))) :
    List StateChanges :=
  (reportsOf ieee es).map Prod.snd

/-- What is known of a device after some events, from its own reports alone. -/
def history (ieee : Ieee) (es : List (Event (Engine.ofDefinitions resolve debug tuya))) :
    Ordered String Json :=
  (StateChanges.mergeAll (deltasOf ieee es)).fields

theorem get_mergeAll (rs : Reports) (id : CapabilityId) :
    (StateChanges.mergeAll (rs.map Prod.snd)).get id = latestOfAny rs id := by
  induction rs using List.reverseRecOn with
  | nil => rfl
  | append_singleton rs r ih =>
    have hlatest : latestOfAny (rs ++ [r]) id = (r.2.get id).or (latestOfAny rs id) := by
      rw [latestOfAny,List.reverse_append,List.reverse_singleton,List.singleton_append,
        List.findSome?_cons]
      cases r.2.get id with
      | none => rfl
      | some v => rfl
    rw [List.map_append,List.map_singleton,StateChanges.mergeAll_concat,StateChanges.get_merge,
      ih,hlatest]

/-- The accumulated state is the device's history. -/
theorem fields_run (text : JsonText) (topics : Topics) (ieee : Ieee)
    (es : List (Event (Engine.ofDefinitions resolve debug tuya))) :
    (((new topics).run text es).1.state ieee).fields = history ieee es := by
  apply Ordered.ext_get
  intro name
  rw [get_fields_run,history,StateChanges.get_fields,deltasOf,get_mergeAll]

theorem run_append (text : JsonText) (s : StateStore)
    (es fs : List (Event (Engine.ofDefinitions resolve debug tuya))) :
    s.run text (es ++ fs) = (((s.run text es).1.run text fs).1,
      (s.run text es).2 ++ ((s.run text es).1.run text fs).2) := by
  induction es generalizing s with
  | nil => rfl
  | cons e es ih => simp [run,ih]

/-- A report has one thing published, under the device's own topic. -/
theorem translate_stateChanged (text : JsonText) (s : StateStore) (ieee : Ieee)
    (endpoint : Option EndpointId) (changes : StateChanges) :
    (s.translate text (.stateChanged (E := Engine.ofDefinitions resolve debug tuya) ieee endpoint
      changes)).2 = [⟨s.topics.device ieee,text.toText ((s.translate text
        (.stateChanged (E := Engine.ofDefinitions resolve debug tuya) ieee endpoint
          changes)).1.state ieee).object,false⟩] := by
  simp [translate,state,AList.lookup_insert,DeviceState.apply]

/-- Wherever a report stands among the events, one thing is published for it, not retained and
under the device's topic: its history so far as an object with its keys in order. No other event
changes what is known of the device. -/
theorem published_is_history (text : JsonText) (topics : Topics) :
    (∀ (before after : List (Event (Engine.ofDefinitions resolve debug tuya))) (ieee : Ieee)
      (endpoint : Option EndpointId) (changes : StateChanges),
      let upTo := before ++ [.stateChanged ieee endpoint changes]
      ((new topics).run text (upTo ++ after)).2 = ((new topics).run text before).2 ++
        ⟨topics.device ieee,text.toText (.object (history ieee upTo).entries),false⟩ ::
          (((new topics).run text upTo).1.run text after).2 ∧
      ((history ieee upTo).entries.map Prod.fst).Pairwise (· < ·) ∧
      ∀ name, (history ieee upTo).get name =
        (latestOfAny (reportsOf ieee upTo) ⟨name⟩).map (rendered name)) ∧
    ∀ (s : StateStore) (e : Event (Engine.ofDefinitions resolve debug tuya)) (ieee : Ieee),
      (∀ endpoint changes, e ≠ .stateChanged ieee endpoint changes) →
        (s.translate text e).1.state ieee = s.state ieee := by
  constructor
  · intro before after ieee endpoint changes upTo
    have htopics : ((new topics).run text before).1.topics = topics :=
      topics_run text (new topics) before
    have hstate : (((new topics).run text upTo).1.state ieee).object =
        .object (history ieee upTo).entries := by
      rw [DeviceState.object,fields_run]
    refine ⟨?_,(history ieee upTo).sorted,fun name => ?_⟩
    · rw [run_append,← hstate,run_concat,translate_stateChanged,htopics,List.append_assoc,
        List.singleton_append]
    · rw [history,StateChanges.get_fields,deltasOf,get_mergeAll]
  · intro s e ieee h
    apply state_of_not_reported
    by_contra hreport
    obtain ⟨r,hr⟩ := Option.ne_none_iff_exists'.mp hreport
    exact h r.1 r.2 (reportOf_eq_some hr)

end StateStore
end Rszigbee
