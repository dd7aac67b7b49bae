import Mathlib.Data.Finset.Card
import Rszigbee.Datapoints
import Rszigbee.Json
import Rszigbee.Topics

/-! Events as they are published, and what is known of each device between them. -/
namespace Rszigbee

/-- One thing to publish; the payload is serialised. -/
structure Publication where
  topic : String
  payload : String
  retain : Bool
  deriving DecidableEq

/-- The boolean capabilities that are published as words. -/
def booleanRenderings : List (String × String × String) :=
  [("state","ON","OFF"),("child_lock","LOCK","UNLOCK"),("window_open","OPEN","CLOSE")]

def booleanRendering (capability : String) : Option (String × String) :=
  (booleanRenderings.find? fun r => r.1 = capability).map Prod.snd

/-- A float as an integer, when it is exactly one of at most 2⁵³. -/
def integral (x : Float) : Option Int64 :=
  match x.toModel.unpack with
  | .zero _ => some 0
  | .finite sign mantissa exponent _ =>
    let whole := Floats.exactly mantissa exponent
    (whole.filter fun magnitude => magnitude ≤ 2 ^ 53).map fun magnitude => match sign with
      | .positive => .ofInt magnitude
      | .negative => .ofInt (-magnitude)
  | _ => none

example : integral (floatOfInt 100) = some 100 ∧ integral (floatOfInt (-200) / floatOfInt 2) =
    some (-100) ∧ integral (floatOfInt 1 / floatOfInt 2) = none := by
  decide

mutual

def toJson : StateValue → Json
  | .bool b => .bool b
  | .int i => .int i
  | .float x => ((integral x).map Json.int).getD (.float x)
  | .str s | .enum s => .string s
  | .list items => .array (toItems items)
  | .map entries => .ofFields (toFields entries)
  | .null => .null

def toItems : List StateValue → List Json
  | [] => []
  | v::vs => toJson v::toItems vs

def toFields : List (String × StateValue) → List (String × Json)
  | [] => []
  | (k,v)::entries => (k,toJson v)::toFields entries

end

/-- How a capability's value is published. -/
def rendered (name : String) (value : StateValue) : Json :=
  match value, booleanRendering name with
  | .bool b, some (yes,no) => .string (if b then yes else no)
  | value, _ => toJson value

/-- A device's accumulated state. -/
structure DeviceState where
  fields : Ordered String Json := .empty

namespace DeviceState

/-- What is published of a device. -/
def object (d : DeviceState) : Json := .object d.fields.entries

def applyEntries (fields : Ordered String Json) (es : List (CapabilityId × StateValue)) :
    Ordered String Json :=
  es.foldl (fun fields e => fields.insert e.1.name (rendered e.1.name e.2)) fields

/-- Applies a delta; the whole state is published. -/
def apply (text : JsonText) (d : DeviceState) (changes : StateChanges) : DeviceState × String :=
  let d : DeviceState := ⟨applyEntries d.fields changes.entries⟩
  (d,text.toText d.object)

end DeviceState

structure StateStore where
  topics : Topics
  devices : Table Ieee DeviceState := ∅

namespace StateStore

def new (topics : Topics) : StateStore where
  topics := topics

section Bridge

variable (text : JsonText) (s : StateStore)

def online : Publication :=
  ⟨s.topics.bridgeState,text.toText (.ofFields [("state",.string "online")]),true⟩

/-- What the broker publishes if the gateway vanishes. -/
def offline : Publication :=
  ⟨s.topics.bridgeState,text.toText (.ofFields [("state",.string "offline")]),true⟩

/-- A `bridge/event` naming a device. -/
def bridgeEvent (kind : String) (ieee : Ieee) : Publication :=
  ⟨s.topics.bridgeEvent,text.toText (.ofFields [("type",.string kind),
    ("data",.ofFields [("friendly_name",.string ieee.show),
      ("ieee_address",.string ieee.show)])]),false⟩

def interviewEvent (ieee : Ieee) (status : String) : Publication :=
  ⟨s.topics.bridgeEvent,text.toText (.ofFields [("type",.string "device_interview"),
    ("data",.ofFields [("friendly_name",.string ieee.show),
      ("ieee_address",.string ieee.show),("status",.string status)])]),false⟩

/-- The answer to a `bridge/request`. -/
def response (name : String) (data : Json) (ok : Bool) : Publication :=
  ⟨s.topics.bridgeResponse name,text.toText (.ofFields [("data",data),
    ("status",.string (if ok then "ok" else "error"))]),false⟩

end Bridge

section Translation

variable {resolve : DeviceInfo → Option Definition} {debug : DebugText} {tuya : TuyaSide}

/-- What is known of a device. -/
def state (s : StateStore) (ieee : Ieee) : DeviceState := (s.devices.lookup ieee).getD {}

/-- What an event becomes; most become nothing. -/
def translate (text : JsonText) (s : StateStore) :
    Event (Engine.ofDefinitions resolve debug tuya) → StateStore × List Publication
  | .stateChanged ieee _ changes =>
    let (d,payload) := (s.state ieee).apply text changes
    ({ s with devices := s.devices.insert ieee d },[⟨s.topics.device ieee,payload,false⟩])
  | .deviceJoined ieee _ => (s,[s.bridgeEvent text "device_joined" ieee])
  | .deviceAnnounced ieee => (s,[s.bridgeEvent text "device_announce" ieee])
  | .deviceLeft ieee _ => (s,[s.bridgeEvent text "device_leave" ieee])
  | .interviewStarted ieee => (s,[s.interviewEvent text ieee "started"])
  | .interviewFinished ieee state => (s,[s.interviewEvent text ieee
      (match state with
        | .successful => "successful"
        | _ => "failed")])
  | _ => (s,[])

/-- One event after the other, and all that is published. -/
def run (text : JsonText) : StateStore → List (Event (Engine.ofDefinitions resolve debug tuya)) →
    StateStore × List Publication
  | s, [] => (s,[])
  | s, e::es =>
    let (s,published) := s.translate text e
    let (s,later) := run text s es
    (s,published ++ later)

end Translation
end StateStore

section Gangs

/-- What each gang reported, in order; a report without an endpoint counts as a gang's own. -/
abbrev Reports := List (Option EndpointId × StateChanges)

/-- The latest value a gang reported of a capability. -/
def latest (rs : Reports) (gang : Option EndpointId) (id : CapabilityId) : Option StateValue :=
  rs.reverse.findSome? fun r => if r.1 = gang then r.2.get id else none

/-- Every gang's latest values stand under fields of their own. -/
def OwnFields (rs : Reports) (fields : Ordered String Json) : Prop :=
  ∃ field : Option EndpointId → CapabilityId → String,
    (∀ gang id gang' id', latest rs gang id ≠ none → latest rs gang' id' ≠ none →
      field gang id = field gang' id' → gang = gang' ∧ id = id') ∧
    ∀ gang id value, latest rs gang id = some value →
      fields.get (field gang id) = some (rendered id.name value)

/-- No capability is reported by two gangs. -/
def OneGangEach (rs : Reports) : Prop :=
  ∀ id gang gang', latest rs gang id ≠ none → latest rs gang' id ≠ none → gang = gang'

/-- The latest value of a capability, whoever reported it. -/
def latestOfAny (rs : Reports) (id : CapabilityId) : Option StateValue :=
  rs.reverse.findSome? fun r => r.2.get id

theorem latest_ne_none {rs : Reports} {gang : Option EndpointId} {id : CapabilityId} :
    latest rs gang id ≠ none ↔ ∃ r ∈ rs, r.1 = gang ∧ r.2.get id ≠ none := by
  rw [latest,Ne,List.findSome?_eq_none_iff]
  simp

theorem latestOfAny_ne_none {rs : Reports} {id : CapabilityId} :
    latestOfAny rs id ≠ none ↔ ∃ gang, latest rs gang id ≠ none := by
  rw [latestOfAny,Ne,List.findSome?_eq_none_iff]
  simp only [latest_ne_none]
  constructor
  · intro h
    push Not at h
    obtain ⟨r,hr,hget⟩ := h
    exact ⟨r.1,r,by simpa using hr,rfl,hget⟩
  · rintro ⟨gang,r,hr,-,hget⟩ h
    exact hget (h r (by simpa using hr))

/-- Of a capability of one gang, the latest value is that gang's. -/
theorem latestOfAny_eq {rs : Reports} {gang : Option EndpointId} {id : CapabilityId}
    (h : ∀ gang', latest rs gang' id ≠ none → gang' = gang) :
    latestOfAny rs id = latest rs gang id := by
  have hmem : ∀ r ∈ rs.reverse, r.2.get id = if r.1 = gang then r.2.get id else none := by
    intro r hr
    by_cases hgang : r.1 = gang
    · rw [if_pos hgang]
    · rw [if_neg hgang]
      by_contra hget
      exact hgang (h r.1 (latest_ne_none.mpr ⟨r,List.mem_reverse.mp hr,rfl,hget⟩))
  rw [latestOfAny,latest]
  generalize rs.reverse = rs' at hmem
  induction rs' with
  | nil => rfl
  | cons r rs' ih =>
    obtain ⟨hr,hrs⟩ := List.forall_mem_cons.mp hmem
    rw [List.findSome?_cons,List.findSome?_cons,← hr,ih hrs]

/-- The pairs of gangs and capabilities that were reported. -/
def reported (rs : Reports) : Finset (Option EndpointId × CapabilityId) :=
  (rs.flatMap fun r => r.2.entries.map fun e => (r.1,e.1)).toFinset

theorem mem_reported {rs : Reports} {gang : Option EndpointId} {id : CapabilityId} :
    (gang,id) ∈ reported rs ↔ latest rs gang id ≠ none := by
  rw [latest_ne_none,reported,List.mem_toFinset,List.mem_flatMap]
  simp only [List.mem_map,Prod.mk.injEq,StateChanges.get,ne_eq,Option.map_eq_none_iff,
    List.find?_eq_none,decide_eq_true_eq,not_forall,not_not,exists_prop]
  constructor
  · rintro ⟨r,hr,e,he,hgang,hid⟩
    exact ⟨r,hr,hgang,e,he,hid⟩
  · rintro ⟨r,hr,hgang,e,he,hid⟩
    exact ⟨r,hr,e,he,hgang,hid⟩

/-- A map with one field for each capability has room for every gang's values only if no two
gangs share a capability. -/
theorem ownFields_iff {rs : Reports} {fields : Ordered String Json}
    (hfields : ∀ name, fields.get name = (latestOfAny rs ⟨name⟩).map (rendered name)) :
    OwnFields rs fields ↔ OneGangEach rs := by
  constructor
  · rintro ⟨field,hinjective,hcarries⟩
    have hinjOn : Set.InjOn (fun p : Option EndpointId × CapabilityId => field p.1 p.2)
        (reported rs) := by
      rintro ⟨gang,id⟩ hp ⟨gang',id'⟩ hp' heq
      obtain ⟨rfl,rfl⟩ := hinjective gang id gang' id' (mem_reported.mp hp) (mem_reported.mp hp') heq
      rfl
    have hsubset : (reported rs).image (fun p => field p.1 p.2) ⊆
        ((reported rs).image Prod.snd).image CapabilityId.name := by
      intro name hname
      obtain ⟨⟨gang,id⟩,hp,rfl⟩ := Finset.mem_image.mp hname
      obtain ⟨value,hvalue⟩ := Option.ne_none_iff_exists'.mp (mem_reported.mp hp)
      have hget := hcarries gang id value hvalue
      rw [hfields] at hget
      obtain ⟨value',hvalue',-⟩ := Option.map_eq_some_iff.mp hget
      have hany : latestOfAny rs ⟨field gang id⟩ ≠ none := by simp [hvalue']
      obtain ⟨gang',hgang'⟩ := latestOfAny_ne_none.mp hany
      exact Finset.mem_image.mpr ⟨_,Finset.mem_image.mpr ⟨_,mem_reported.mpr hgang',rfl⟩,rfl⟩
    have hcard : (reported rs).card ≤ ((reported rs).image Prod.snd).card := by
      calc (reported rs).card
          = ((reported rs).image fun p => field p.1 p.2).card :=
            (Finset.card_image_of_injOn hinjOn).symm
        _ ≤ (((reported rs).image Prod.snd).image CapabilityId.name).card :=
            Finset.card_le_card hsubset
        _ ≤ ((reported rs).image Prod.snd).card := Finset.card_image_le
    have hsnd : Set.InjOn Prod.snd (reported rs : Set (Option EndpointId × CapabilityId)) :=
      Finset.card_image_iff.mp (le_antisymm Finset.card_image_le hcard)
    intro id gang gang' hgang hgang'
    have hpair : (gang,id) = (gang',id) :=
      hsnd (mem_reported.mpr hgang) (mem_reported.mpr hgang') rfl
    exact congrArg Prod.fst hpair
  · intro hone
    refine ⟨fun _ id => id.name,?_,?_⟩
    · rintro gang ⟨name⟩ gang' ⟨name'⟩ hgang hgang' (rfl : name = name')
      exact ⟨hone _ _ _ hgang hgang',rfl⟩
    · intro gang id value hvalue
      have hgang : latest rs gang id ≠ none := by simp [hvalue]
      rw [hfields,latestOfAny_eq fun gang' hgang' => hone _ _ _ hgang' hgang,hvalue]
      rfl

end Gangs

namespace StateStore

section Runs

variable {resolve : DeviceInfo → Option Definition} {debug : DebugText} {tuya : TuyaSide}
  {ieee : Ieee}

/-- What an event reports of a device. -/
def reportOf (ieee : Ieee) : Event (Engine.ofDefinitions resolve debug tuya) →
    Option (Option EndpointId × StateChanges)
  | .stateChanged i endpoint changes => if i = ieee then some (endpoint,changes) else none
  | _ => none

def reportsOf (ieee : Ieee) (es : List (Event (Engine.ofDefinitions resolve debug tuya))) :
    Reports :=
  es.filterMap (reportOf ieee)

theorem get_applyEntries {es : List (CapabilityId × StateValue)} (hes : (es.map Prod.fst).Nodup)
    (fields : Ordered String Json) (name : String) :
    (DeviceState.applyEntries fields es).get name =
      ((es.find? fun e => e.1 = ⟨name⟩).map fun e => rendered name e.2).or (fields.get name) := by
  induction es generalizing fields with
  | nil => rfl
  | cons e es ih =>
    obtain ⟨he,hes⟩ := List.nodup_cons.mp hes
    have hstep : DeviceState.applyEntries fields (e::es) =
        DeviceState.applyEntries (fields.insert e.1.name (rendered e.1.name e.2)) es := rfl
    rw [hstep,ih hes,Ordered.get_insert]
    by_cases hname : e.1 = ⟨name⟩
    · have hrest : es.find? (fun e => e.1 = ⟨name⟩) = none := by
        rw [List.find?_eq_none]
        intro e' he' heq
        refine he (List.mem_map.mpr ⟨e',he',?_⟩)
        rw [hname]
        simpa using heq
      rw [hrest,List.find?_cons_of_pos (by simpa using hname)]
      simp [hname]
    · have hne : name ≠ e.1.name := by
        rintro rfl
        exact hname rfl
      rw [List.find?_cons_of_neg (by simpa using hname),if_neg hne]

theorem reportOf_eq_some {e : Event (Engine.ofDefinitions resolve debug tuya)}
    {r : Option EndpointId × StateChanges} (h : reportOf ieee e = some r) :
    e = .stateChanged ieee r.1 r.2 := by
  cases e with
  | stateChanged i endpoint changes =>
    obtain ⟨rfl,hr⟩ := Option.ite_none_right_eq_some.mp h
    obtain rfl := Option.some.inj hr
    rfl
  | _ => cases h

theorem state_of_not_reported (text : JsonText) (s : StateStore)
    {e : Event (Engine.ofDefinitions resolve debug tuya)} (h : reportOf ieee e = none) :
    (s.translate text e).1.state ieee = s.state ieee := by
  cases e with
  | stateChanged i endpoint changes =>
    have hne : ieee ≠ i := by
      rintro rfl
      simp [reportOf] at h
    simp [translate,state,AList.lookup_insert_ne hne]
  | _ => rfl

/-- What is known of a device after an event. -/
theorem state_translate (text : JsonText) (s : StateStore)
    (e : Event (Engine.ofDefinitions resolve debug tuya)) (name : String) :
    ((s.translate text e).1.state ieee).fields.get name =
      (((reportOf ieee e).bind fun r => r.2.get ⟨name⟩).map (rendered name)).or
        ((s.state ieee).fields.get name) := by
  cases h : reportOf ieee e with
  | none =>
    rw [state_of_not_reported text s h]
    rfl
  | some r =>
    obtain rfl := reportOf_eq_some h
    have hstate : ((s.translate text
        (.stateChanged (E := Engine.ofDefinitions resolve debug tuya) ieee r.1 r.2)).1.state
          ieee).fields = DeviceState.applyEntries (s.state ieee).fields r.2.entries := by
      simp [translate,state,AList.lookup_insert,DeviceState.apply]
    rw [hstate,get_applyEntries r.2.distinct,Option.bind_some,StateChanges.get,Option.map_map]
    rfl

@[simp] theorem topics_translate (text : JsonText) (s : StateStore)
    (e : Event (Engine.ofDefinitions resolve debug tuya)) :
    (s.translate text e).1.topics = s.topics := by
  cases e with
  | _ => rfl

/-- A device's own topic is none of the bridge's, nor another device's. -/
theorem device_ne_bridgeEvent (t : Topics) : t.bridgeEvent ≠ t.device ieee := by
  intro h
  have hlist := congrArg String.toList h
  simp [Topics.bridgeEvent,Topics.device,Ieee.toList_show] at hlist

theorem device_inj {t : Topics} {i : Ieee} : t.device i = t.device ieee ↔ i = ieee := by
  rw [Topics.device,Topics.device,← String.toList_inj]
  simp only [String.toList_append,List.append_cancel_left_eq,String.toList_inj,Ieee.show_inj]

/-- What an event has published for a device: its whole state, if it is a report of it. -/
theorem published_translate (text : JsonText) (s : StateStore) (ieee : Ieee)
    (e : Event (Engine.ofDefinitions resolve debug tuya)) :
    (s.translate text e).2.filter (fun p => p.topic = s.topics.device ieee) =
      ((reportOf ieee e).map fun _ => (⟨s.topics.device ieee,
        text.toText ((s.translate text e).1.state ieee).object,false⟩ : Publication)).toList := by
  cases e with
  | stateChanged i endpoint changes =>
    by_cases hi : i = ieee
    · subst hi
      simp [translate,state,AList.lookup_insert,reportOf,DeviceState.apply]
    · simp [translate,reportOf,hi,device_inj]
  | deviceJoined i nwk => simp [translate,reportOf,bridgeEvent,device_ne_bridgeEvent]
  | deviceAnnounced i => simp [translate,reportOf,bridgeEvent,device_ne_bridgeEvent]
  | deviceLeft i reason => simp [translate,reportOf,bridgeEvent,device_ne_bridgeEvent]
  | interviewStarted i => simp [translate,reportOf,interviewEvent,device_ne_bridgeEvent]
  | interviewFinished i state => simp [translate,reportOf,interviewEvent,device_ne_bridgeEvent]
  | _ => rfl

theorem run_concat (text : JsonText) (s : StateStore)
    (es : List (Event (Engine.ofDefinitions resolve debug tuya)))
    (e : Event (Engine.ofDefinitions resolve debug tuya)) :
    s.run text (es ++ [e]) = (((s.run text es).1.translate text e).1,
      (s.run text es).2 ++ ((s.run text es).1.translate text e).2) := by
  induction es generalizing s with
  | nil => simp [run]
  | cons e' es ih => simp [run,ih]

theorem topics_run (text : JsonText) (s : StateStore)
    (es : List (Event (Engine.ofDefinitions resolve debug tuya))) :
    (s.run text es).1.topics = s.topics := by
  induction es generalizing s with
  | nil => rfl
  | cons e es ih => rw [run,ih,topics_translate]

theorem reportsOf_concat (es : List (Event (Engine.ofDefinitions resolve debug tuya)))
    (e : Event (Engine.ofDefinitions resolve debug tuya)) :
    reportsOf ieee (es ++ [e]) = reportsOf ieee es ++ (reportOf ieee e).toList := by
  rw [reportsOf,List.filterMap_append]
  cases h : reportOf ieee e with
  | none => simp [reportsOf,h]
  | some r => simp [reportsOf,h]

/-- The fields known of a device after a run: the latest value of each capability. -/
theorem get_fields_run (text : JsonText) (topics : Topics)
    (es : List (Event (Engine.ofDefinitions resolve debug tuya))) (name : String) :
    (((new topics).run text es).1.state ieee).fields.get name =
      (latestOfAny (reportsOf ieee es) ⟨name⟩).map (rendered name) := by
  induction es using List.reverseRecOn with
  | nil => rfl
  | append_singleton es e ih =>
    rw [run_concat,state_translate,ih,reportsOf_concat]
    cases reportOf ieee e with
    | none => simp
    | some r =>
      simp only [Option.toList_some,latestOfAny,List.reverse_append,List.reverse_singleton,
        List.singleton_append,List.findSome?_cons,Option.bind_some]
      cases r.2.get ⟨name⟩ with
      | none => simp
      | some value => simp

/-- What was published last for a device. -/
theorem getLast_published (text : JsonText) (topics : Topics)
    (es : List (Event (Engine.ofDefinitions resolve debug tuya))) :
    (((new topics).run text es).2.filter fun p => p.topic = topics.device ieee).getLast? =
      if reportsOf ieee es = [] then none
      else some ⟨topics.device ieee,
        text.toText (((new topics).run text es).1.state ieee).object,false⟩ := by
  induction es using List.reverseRecOn with
  | nil => rfl
  | append_singleton es e ih =>
    have htopics : ((new topics).run text es).1.topics = topics := topics_run text (new topics) es
    have hlast := published_translate text ((new topics).run text es).1 ieee e
    rw [htopics] at hlast
    rw [run_concat,List.filter_append,hlast,reportsOf_concat]
    cases hreport : reportOf ieee e with
    | some r => simp
    | none =>
      rw [state_of_not_reported text _ hreport]
      simpa using ih

/-- What is published last for a device is its accumulated state, and there every gang's latest
values stand under their own fields exactly when no capability is reported by two gangs. -/
theorem gangs_keep_own_fields_iff (text : JsonText) (topics : Topics) (ieee : Ieee)
    (es : List (Event (Engine.ofDefinitions resolve debug tuya))) :
    (((new topics).run text es).2.filter fun p => p.topic = topics.device ieee).getLast? =
      (if reportsOf ieee es = [] then none
      else some ⟨topics.device ieee,
        text.toText (((new topics).run text es).1.state ieee).object,false⟩) ∧
    (OwnFields (reportsOf ieee es) (((new topics).run text es).1.state ieee).fields ↔
      OneGangEach (reportsOf ieee es)) :=
  ⟨getLast_published text topics es,ownFields_iff (get_fields_run text topics es)⟩

end Runs

/-- Two gangs report `state`; what is published then has the value of the second only. -/
theorem gang_overwritten : ¬ ∀ (resolve : DeviceInfo → Option Definition) (debug : DebugText)
    (tuya : TuyaSide) (text : JsonText) (topics : Topics) (ieee : Ieee)
    (es : List (Event (Engine.ofDefinitions resolve debug tuya))),
    (∀ r ∈ reportsOf ieee es, r.1 ≠ none) →
      OwnFields (reportsOf ieee es) (((new topics).run text es).1.state ieee).fields := by
  intro h
  obtain ⟨field,-,hcarries⟩ := h (fun _ => none) ⟨fun _ => "",fun _ => ""⟩ (Tuya.side ∅)
    ⟨fun _ => .error "",fun _ => ""⟩ (.new "zigbee2mqtt") ⟨0xa4c138142d62ffff⟩
    [.stateChanged ⟨0xa4c138142d62ffff⟩ (some ⟨1⟩) (StateChanges.single "state" (.bool true)),
      .stateChanged ⟨0xa4c138142d62ffff⟩ (some ⟨2⟩) (StateChanges.single "state" (.bool false))]
    (by decide)
  have hfirst := hcarries (some ⟨1⟩) ⟨"state"⟩ (.bool true) rfl
  rw [get_fields_run] at hfirst
  obtain ⟨value,hvalue,hrendered⟩ := Option.map_eq_some_iff.mp hfirst
  generalize field (some ⟨1⟩) ⟨"state"⟩ = name at hvalue hrendered
  by_cases hname : name = "state"
  · subst hname
    obtain rfl : StateValue.bool false = value := Option.some.inj hvalue
    simp [rendered,booleanRendering,booleanRenderings] at hrendered
  · have hne : "state" ≠ name := fun h => hname h.symm
    simp [latestOfAny,reportsOf,reportOf,StateChanges.get,StateChanges.single,StateChanges.set,
      StateChanges.setEntry,StateChanges.new,hne] at hvalue

end StateStore
end Rszigbee
