import Rszigbee.Json
import Rszigbee.Topics

/-! What arrives from the broker, parsed into what it asks for. -/
namespace Rszigbee

/-- A message off the broker. -/
structure Message where
  topic : String
  payload : Bytes
  deriving DecidableEq

inductive Inbound
  | set (ieee : Ieee) (changes : StateChanges)
  | get (ieee : Ieee) (capabilities : List CapabilityId)
  | permitJoin (duration : Duration)
  | unknownRequest (name : String)

inductive InboundError
  | foreignTopic (topic : String)
  | unknownTopic (topic : String)
  | notAnAddress (address : String)
  | notJson (e : String)
  | wrongShape (detail : String)
  deriving DecidableEq

def InboundError.text : InboundError → String
  | foreignTopic topic => "topic " ++ topic ++ " is not in this gateway's namespace"
  | unknownTopic topic => "topic " ++ topic ++ " is not one this gateway reads"
  | notAnAddress address => address ++ " is not an IEEE address"
  | notJson e => "payload is not valid JSON: " ++ e
  | wrongShape detail => "payload is not the expected shape: " ++ detail

mutual

/-- A string stays a string; which capability it is for is not known here. -/
def fromJson : Json → StateValue
  | .bool b => .bool b
  | .number n => (n.asI64.map StateValue.int).getD ((n.asF64.map StateValue.float).getD .null)
  | .string s => .str s
  | .array items => .list (fromItems items)
  | .object fields => .map (fromFields fields)
  | .null => .null

def fromItems : List Json → List StateValue
  | [] => []
  | v::vs => fromJson v::fromItems vs

def fromFields : List (String × Json) → List (String × StateValue)
  | [] => []
  | (k,v)::fields => (k,fromJson v)::fromFields fields

end

section Payloads

variable (text : JsonText) (payload : Bytes)

def json : Except InboundError Json := (text.fromSlice payload).mapError .notJson

/-- How long `permit_join` is asked for. -/
def permitSeconds : Json → Except InboundError UInt64
  | .object fields =>
    match (fields.find? fun e => e.1 = "time").map Prod.snd with
    | some (.number n) => .ok (n.asU64.getD 0)
    | some (.bool true) | none => .ok 254
    | some (.bool false) => .ok 0
    | some other => .error (.wrongShape
        ("permit_join time must be a number or a boolean, got " ++ text.toText other))
  | .number n => .ok (n.asU64.getD 0)
  | .bool true => .ok 254
  | .bool false => .ok 0
  | other => .error (.wrongShape
      ("permit_join takes an object, a number or a boolean, got " ++ text.toText other))

/-- A body of `permit_join`. -/
def parsePermitJoin : Except InboundError Duration := do
  let seconds ← permitSeconds text (← json text payload)
  pure (.fromSecs seconds.toNat)

/-- A body of `bridge/request/<name>`. -/
def parseRequest (name : String) : Except InboundError Inbound :=
  if name ≠ "permit_join" then .ok (.unknownRequest name)
  else (parsePermitJoin text payload).map .permitJoin

/-- A body of `/set`: capability names to desired values. -/
def parseState : Except InboundError StateChanges := do
  match ← json text payload with
  | .object fields =>
    pure (fields.foldl (fun changes e => changes.set ⟨e.1⟩ (fromJson e.2)) .new)
  | _ => .error (.wrongShape "a /set payload is an object of capability names to values")

/-- `u8::is_ascii_whitespace`. -/
def isAsciiWhitespace (b : UInt8) : Bool := b ∈ ([0x20,0x09,0x0a,0x0c,0x0d] : List UInt8)

/-- A body of `/get`: the names of what to read; an empty one asks for everything. -/
def parseCapabilities : Except InboundError (List CapabilityId) := do
  if payload.all isAsciiWhitespace then pure []
  else
    match ← json text payload with
    | .object fields => pure (fields.map fun e => ⟨e.1⟩)
    | _ => .error (.wrongShape "a /get payload is an object whose keys name capabilities")

end Payloads

/-- A topic that ends in an address and a verb. -/
def parseAddressed (text : JsonText) (message : Message) (rest : String) :
    Except InboundError Inbound :=
  match Texts.splitLast '/' rest.toList with
  | none => .error (.unknownTopic message.topic)
  | some (address,verb) =>
    match Ieee.parse (.ofList address) with
    | .error _ => .error (.notAnAddress (.ofList address))
    | .ok ieee =>
      if String.ofList verb = "set" then (parseState text message.payload).map (.set ieee)
      else if String.ofList verb = "get" then
        (parseCapabilities text message.payload).map (.get ieee)
      else .error (.unknownTopic message.topic)

def parse (text : JsonText) (topics : Topics) (message : Message) : Except InboundError Inbound :=
  match topics.strip message.topic with
  | none => .error (.foreignTopic message.topic)
  | some rest =>
    match stripPrefix "bridge/request/" rest with
    | some name => parseRequest text message.payload name
    | none => parseAddressed text message rest

/-- An address is made of digits, after the two characters of its prefix. -/
theorem Ieee.not_mem_of_parse {s : String} {ieee : Ieee} (h : parse s = .ok ieee) {c : Char}
    (hdigit : Texts.digitValue 16 c = none) (hc : c ≠ 'x' ∧ c ≠ 'X' ∧ c ≠ '+') :
    c ∉ s.toList := by
  intro hmem
  have hzero : c ≠ '0' := by
    rintro rfl
    simp [Texts.digitValue] at hdigit
  have hnone : ∀ cs, c ∈ cs → Texts.fromStrRadix 16 (2 ^ 64) cs = none :=
    fun cs hcs => Texts.fromStrRadix_eq_none hdigit hc.2.2 hcs
  rw [parse] at h
  split at h
  · rename_i rest hs
    rw [hnone rest (by simpa [hs,hzero,hc] using hmem)] at h
    split at h
    · cases h
    · cases h
  · rename_i rest hs
    rw [hnone rest (by simpa [hs,hzero,hc] using hmem)] at h
    split at h
    · cases h
    · cases h
  · rw [hnone _ hmem] at h
    split at h
    · cases h
    · cases h

section Parsing

variable {text : JsonText} {t : Topics}

theorem parseAddressed_of_not_mem (message : Message) {rest : String} (h : '/' ∉ rest.toList) :
    parseAddressed text message rest = .error (.unknownTopic message.topic) := by
  rw [parseAddressed,Texts.splitLast_eq_none h]

theorem splitLast_verb (address : String) {verb : String} (h : '/' ∉ verb.toList) :
    Texts.splitLast '/' (address ++ "/" ++ verb).toList = some (address.toList,verb.toList) := by
  rw [String.toList_append,String.toList_append,List.append_assoc]
  exact Texts.splitLast_append _ h

theorem parseAddressed_error (message : Message) {address verb : String}
    (hverb : '/' ∉ verb.toList) {e : Ieee.ParseError} (h : Ieee.parse address = .error e) :
    parseAddressed text message (address ++ "/" ++ verb) = .error (.notAnAddress address) := by
  rw [parseAddressed,splitLast_verb address hverb]
  simp only [String.ofList_toList,h]

theorem parseAddressed_ok (message : Message) {address verb : String}
    (hverb : '/' ∉ verb.toList) {ieee : Ieee} (h : Ieee.parse address = .ok ieee) :
    parseAddressed text message (address ++ "/" ++ verb) =
      if verb = "set" then (parseState text message.payload).map (.set ieee)
      else if verb = "get" then (parseCapabilities text message.payload).map (.get ieee)
      else .error (.unknownTopic message.topic) := by
  rw [parseAddressed,splitLast_verb address hverb]
  simp only [String.ofList_toList,h]

/-- What is understood names an address and one of the two verbs. -/
theorem exists_of_parseAddressed {message : Message} {rest : String} {intent : Inbound}
    (h : parseAddressed text message rest = .ok intent) : ∃ address verb,
      rest = address ++ "/" ++ verb ∧ '/' ∉ address.toList ∧ (verb = "set" ∨ verb = "get") := by
  by_cases hslash : '/' ∈ rest.toList
  · obtain ⟨before,after,hrest,hafter⟩ := Texts.exists_last hslash
    obtain rfl : rest = String.ofList before ++ "/" ++ String.ofList after := by
      rw [← String.toList_inj,hrest]
      simp
    have hafter' : '/' ∉ (String.ofList after).toList := by rwa [String.toList_ofList]
    refine ⟨_,_,rfl,?_⟩
    cases hieee : Ieee.parse (String.ofList before) with
    | error e =>
      rw [parseAddressed_error message hafter' hieee] at h
      cases h
    | ok ieee =>
      refine ⟨Ieee.not_mem_of_parse hieee (by decide) (by decide),?_⟩
      rw [parseAddressed_ok message hafter' hieee] at h
      split at h
      · rename_i hset
        exact .inl hset
      · split at h
        · rename_i hget
          exact .inr hget
        · cases h
  · rw [parseAddressed_of_not_mem message hslash] at h
    cases h

theorem parse_request (name : String) (payload : Bytes) :
    parse text t ⟨t.bridgeRequest name,payload⟩ = parseRequest text payload name := by
  have hrest : t.strip (t.bridgeRequest name) = some ("bridge/request/" ++ name) := by
    rw [Topics.strip_eq_some,Topics.bridgeRequest,← String.toList_inj]
    simp
  rw [parse,hrest]
  dsimp only
  rw [stripPrefix_eq_some.mpr rfl]

theorem parse_addressed {message : Message} {rest : String}
    (htopic : message.topic = t.base ++ "/" ++ rest)
    (hrest : ∀ name, rest ≠ "bridge/request/" ++ name) :
    parse text t message = parseAddressed text message rest := by
  have hnone : stripPrefix "bridge/request/" rest = none := by
    cases hname : stripPrefix "bridge/request/" rest with
    | none => rfl
    | some name => exact absurd (stripPrefix_eq_some.mp hname) (hrest name)
  rw [parse,Topics.strip_eq_some.mpr htopic]
  dsimp only
  rw [hnone]

/-- An address does not begin as a request does. -/
theorem show_append_ne (ieee : Ieee) (s name : String) :
    ieee.show ++ s ≠ "bridge/request/" ++ name := by
  intro h
  have hlist := congrArg String.toList h
  simp [Ieee.toList_show] at hlist

theorem slash_not_mem_show (ieee : Ieee) : '/' ∉ ieee.show.toList :=
  Ieee.not_mem_show (by decide) (by decide) ieee

/-- A command on an address is read back as one for it. -/
theorem parse_verb (ieee : Ieee) {topic verb : String}
    (htopic : topic = t.base ++ "/" ++ (ieee.show ++ "/" ++ verb)) (hverb : '/' ∉ verb.toList)
    (payload : Bytes) : parse text t ⟨topic,payload⟩ =
      if verb = "set" then (parseState text payload).map (.set ieee)
      else if verb = "get" then (parseCapabilities text payload).map (.get ieee)
      else .error (.unknownTopic topic) := by
  have hrest : ∀ name, ieee.show ++ "/" ++ verb ≠ "bridge/request/" ++ name := by
    intro name
    rw [String.append_assoc]
    exact show_append_ne ieee _ name
  rw [parse_addressed htopic hrest,parseAddressed_ok _ hverb (Ieee.parse_show ieee)]

theorem parse_deviceSet (ieee : Ieee) (payload : Bytes) :
    parse text t ⟨t.deviceSet ieee,payload⟩ = (parseState text payload).map (.set ieee) := by
  have htopic : t.deviceSet ieee = t.base ++ "/" ++ (ieee.show ++ "/" ++ "set") := by
    rw [Topics.deviceSet,← String.toList_inj]
    simp
  rw [parse_verb ieee htopic (by decide) payload,if_pos rfl]

theorem parse_deviceGet (ieee : Ieee) (payload : Bytes) :
    parse text t ⟨t.deviceGet ieee,payload⟩ =
      (parseCapabilities text payload).map (.get ieee) := by
  have htopic : t.deviceGet ieee = t.base ++ "/" ++ (ieee.show ++ "/" ++ "get") := by
    rw [Topics.deviceGet,← String.toList_inj]
    simp
  rw [parse_verb ieee htopic (by decide) payload,if_neg (by decide),if_pos rfl]

/-- State is published on a topic that names no verb. -/
theorem parse_device (ieee : Ieee) (payload : Bytes) :
    parse text t ⟨t.device ieee,payload⟩ = .error (.unknownTopic (t.device ieee)) := by
  have hrest : ∀ name, ieee.show ≠ "bridge/request/" ++ name := by
    intro name
    have hne := show_append_ne ieee "" name
    rwa [String.append_empty] at hne
  rw [parse_addressed rfl hrest,parseAddressed_of_not_mem _ (slash_not_mem_show ieee)]

/-- What the bridge publishes on names no address. -/
theorem parse_bridge {topic : String} (word : String)
    (htopic : topic = t.base ++ "/" ++ ("bridge/" ++ word))
    (hrequest : ∀ name, word ≠ "request/" ++ name) (payload : Bytes) :
    ∃ address, parse text t ⟨topic,payload⟩ = .error (.notAnAddress address) := by
  have hrest : ∀ name, "bridge/" ++ word ≠ "bridge/request/" ++ name := by
    intro name h
    apply hrequest name
    rw [← String.toList_inj] at h ⊢
    simpa using h
  rw [parse_addressed htopic hrest]
  have hslash : '/' ∈ ("bridge/" ++ word).toList := by simp
  obtain ⟨before,after,hsplit,hafter⟩ := Texts.exists_last hslash
  have hsplit' : "bridge/" ++ word = String.ofList before ++ "/" ++ String.ofList after := by
    rw [← String.toList_inj,hsplit]
    simp
  have hafter' : '/' ∉ (String.ofList after).toList := by rwa [String.toList_ofList]
  have hr : 'r' ∈ (String.ofList before).toList := by
    have htext : ("bridge/" ++ word).toList = 'b' :: 'r' :: ("idge/".toList ++ word.toList) := by
      rw [String.toList_append]
      rfl
    rw [htext] at hsplit
    rw [String.toList_ofList]
    cases before with
    | nil => simp at hsplit
    | cons b before =>
      cases before with
      | nil => simp at hsplit
      | cons r before =>
        obtain ⟨-,htail⟩ := List.cons.inj hsplit
        obtain ⟨hr,-⟩ := List.cons.inj htail
        simp [← hr]
  cases hparse : Ieee.parse (String.ofList before) with
  | error e =>
    rw [hsplit']
    exact ⟨_,parseAddressed_error _ hafter' hparse⟩
  | ok ieee => exact absurd hr (Ieee.not_mem_of_parse hparse (by decide) (by decide))

variable (text t)

theorem parse_bridgeState (payload : Bytes) :
    ∃ address, parse text t ⟨t.bridgeState,payload⟩ = .error (.notAnAddress address) := by
  refine parse_bridge "state" ?_ ?_ payload
  · rw [Topics.bridgeState,← String.toList_inj]
    simp
  · intro name h
    simpa using congrArg String.toList h

theorem parse_bridgeEvent (payload : Bytes) :
    ∃ address, parse text t ⟨t.bridgeEvent,payload⟩ = .error (.notAnAddress address) := by
  refine parse_bridge "event" ?_ ?_ payload
  · rw [Topics.bridgeEvent,← String.toList_inj]
    simp
  · intro name h
    simpa using congrArg String.toList h

theorem parse_bridgeResponse (name : String) (payload : Bytes) :
    ∃ address, parse text t ⟨t.bridgeResponse name,payload⟩ = .error (.notAnAddress address) := by
  refine parse_bridge ("response/" ++ name) ?_ ?_ payload
  · rw [Topics.bridgeResponse,← String.toList_inj]
    simp
  · intro name' h
    simpa using congrArg String.toList h

end Parsing

/-- No topic the gateway publishes on is understood, whatever its base and the payload, and each
topic of a command is read as the command it is for. -/
theorem published_refused_and_commands_read_back (text : JsonText) (base : String) (ieee : Ieee)
    (name : String) (payload : Bytes) :
    (∀ topic ∈ [(Topics.new base).device ieee,(Topics.new base).bridgeState,
      (Topics.new base).bridgeEvent,(Topics.new base).bridgeResponse name],
      ∃ e, parse text (.new base) ⟨topic,payload⟩ = .error e) ∧
    parse text (.new base) ⟨(Topics.new base).deviceSet ieee,payload⟩ =
      (parseState text payload).map (.set ieee) ∧
    parse text (.new base) ⟨(Topics.new base).deviceGet ieee,payload⟩ =
      (parseCapabilities text payload).map (.get ieee) ∧
    parse text (.new base) ⟨(Topics.new base).bridgeRequest name,payload⟩ =
      if name = "permit_join" then (parsePermitJoin text payload).map .permitJoin
      else .ok (.unknownRequest name) := by
  refine ⟨?_,parse_deviceSet ieee payload,parse_deviceGet ieee payload,?_⟩
  · simp only [List.forall_mem_cons,List.not_mem_nil,false_imp_iff,implies_true,and_true]
    obtain ⟨state,hstate⟩ := parse_bridgeState text (.new base) payload
    obtain ⟨event,hevent⟩ := parse_bridgeEvent text (.new base) payload
    obtain ⟨response,hresponse⟩ := parse_bridgeResponse text (.new base) name payload
    exact ⟨⟨_,parse_device ieee payload⟩,⟨_,hstate⟩,⟨_,hevent⟩,⟨_,hresponse⟩⟩
  · rw [parse_request,parseRequest]
    by_cases hname : name = "permit_join"
    · simp [hname]
    · simp [hname]

end Rszigbee
