import Rszigbee.Requests
import Mathlib.Data.List.Find

/-! The parameters of a command in another order. The encoder looks them up by name, so the order
is no part of the request; a name supplied twice makes it one. -/
namespace Rszigbee

section Find
variable {α : Type*} {l : List α}

/-- Whatever passes a test can be made the first that does. -/
theorem exists_perm_find? {p : α → Bool} {a : α} (hmem : a ∈ l) (hp : p a = true) :
    ∃ l' : List α, l'.Perm l ∧ l'.find? p = some a := by
  obtain ⟨before,after,rfl⟩ := List.append_of_mem hmem
  refine ⟨a::(before ++ after),List.perm_middle.symm,?_⟩
  rw [List.find?_cons,hp]

/-- What is found by a key is found in any order when no key is there twice. -/
theorem find?_perm_of_nodup {κ : Type*} [DecidableEq κ] (key : α → κ) {l' : List α}
    (hperm : l'.Perm l) (hnodup : (l.map key).Nodup) (k : κ) :
    (l'.find? fun a => key a = k) = l.find? fun a => key a = k := by
  refine List.find?_eq_find?_of_perm hperm ?_
  rintro a ⟨ha,hka⟩ b ⟨hb,hkb⟩
  simp only [decide_eq_true_eq] at hka hkb
  exact List.inj_on_of_nodup_map hnodup (hperm.subset ha) (hperm.subset hb) (hka.trans hkb.symm)

end Find

/-- No command of the cluster declares a parameter twice. -/
def ClusterDef.Distinct (c : ClusterDef) : Prop :=
  ∀ raw definition, c.commands.lookup raw = some definition →
    (definition.params.map ParamDef.name).Nodup

namespace ClusterDef

theorem distinct_new {id : UInt16} {name : String} : (new id name).Distinct := by
  intro raw definition hlookup
  cases hlookup

theorem Distinct.cmd {c : ClusterDef} (h : c.Distinct) {id : UInt8} {name : String}
    {params : List (String × ZclType)} (hparams : (params.map Prod.fst).Nodup) :
    (c.cmd id name params).Distinct := by
  intro raw definition hlookup
  rw [ClusterDef.cmd,Table.lookup_insert_eq] at hlookup
  split at hlookup
  · obtain rfl := Option.some.inj hlookup
    simpa [ClusterDef.command,Function.comp_def] using hparams
  · exact h raw definition hlookup

end ClusterDef

namespace ClusterRegistry

def Distinct (r : ClusterRegistry) : Prop :=
  ∀ device id c, r.get (some device) id = some c → c.Distinct

theorem distinct_empty : ({} : ClusterRegistry).Distinct := by
  intro device id c hget
  cases hget

theorem Distinct.insertGlobal {r : ClusterRegistry} (h : r.Distinct) {c : ClusterDef}
    (hc : c.Distinct) : (r.insertGlobal c).Distinct := by
  intro device id c' hget
  have hcases : c' = c ∨ r.get (some device) id = some c' := by
    rw [ClusterRegistry.get,ClusterRegistry.insertGlobal,Table.lookup_insert_eq] at hget
    rw [ClusterRegistry.get]
    cases hown : ((some device).bind r.perDevice.lookup).bind fun own => own.lookup id.raw with
    | some own =>
      rw [hown] at hget
      exact .inr hget
    | none =>
      rw [hown] at hget
      by_cases hid : id.raw = c.id.raw
      · rw [if_pos hid] at hget
        exact .inl (Option.some.inj hget).symm
      · rw [if_neg hid] at hget
        exact .inr hget
  rcases hcases with rfl | hold
  · exact hc
  · exact h device id c' hold

/-- The definition of the command asked for. -/
def commandDef (r : ClusterRegistry) (device : Ieee) (request : ZclCommand) : Option CommandDef :=
  (r.get (some device) request.cluster).bind fun c => c.commands.lookup request.command.raw

theorem Distinct.commandDef {r : ClusterRegistry} (h : r.Distinct) {device : Ieee}
    {request : ZclCommand} {definition : CommandDef}
    (hdefinition : r.commandDef device request = some definition) :
    (definition.params.map ParamDef.name).Nodup := by
  obtain ⟨c,hc,hlookup⟩ := Option.bind_eq_some_iff.mp hdefinition
  exact h device request.cluster c hc _ _ hlookup

end ClusterRegistry

/-- The command has a parameter of this name. -/
def CommandDef.Declares (definition : CommandDef) (name : String) : Prop :=
  name ∈ definition.params.map ParamDef.name

namespace Encode

section Walk
variable {command : String} {params : List (String × ZclValue)}

/-- One of the parameters is refused whichever of the values supplied for it is taken: none is
supplied, or none encodes, and all for one reason. All the values before it encode. -/
def Refused (params : List (String × ZclValue)) : List ParamDef → Prop
  | [] => False
  | p::ps =>
    (∃ detail, ∀ v, (p.name,v) ∈ params → ∃ e, encodeValue v p.ty = .error e ∧
      e.toText = detail) ∨
    (∀ v, (p.name,v) ∈ params → ∃ bytes, encodeValue v p.ty = .ok bytes) ∧ Refused params ps

/-- An error names the parameter it is about. -/
theorem parameters_error {ps : List ParamDef} {e : EncodeError}
    (h : parameters command params ps = .error e) :
    ∃ p ∈ ps, e = .missingParameter command p.name ∨ ∃ detail, e = .badValue p.name detail := by
  induction ps with
  | nil => cases h
  | cons p ps ih =>
    rcases parameters_cons command params p ps with
      ⟨-,hmissing⟩ | ⟨v,-,-,⟨e',-,hbad⟩ | ⟨bytes,-,hrest⟩⟩
    · exact ⟨p,List.mem_cons_self,.inl (Except.error.inj (h.symm.trans hmissing))⟩
    · exact ⟨p,List.mem_cons_self,.inr ⟨_,Except.error.inj (h.symm.trans hbad)⟩⟩
    · obtain ⟨q,hq,hnames⟩ := ih (map_eq_error.mp (hrest.symm.trans h))
      exact ⟨q,List.mem_cons_of_mem _ hq,hnames⟩

/-- A payload takes every declared parameter. -/
theorem declared_of_parameters_ok {ps : List ParamDef} {payload : Bytes}
    (h : parameters command params ps = .ok payload) :
    ∀ p ∈ ps, p.name ∈ params.map Prod.fst := by
  induction ps generalizing payload with
  | nil => simp
  | cons p ps ih =>
    rcases parameters_cons command params p ps with
      ⟨-,hmissing⟩ | ⟨v,-,hv,⟨e,-,hbad⟩ | ⟨bytes,-,hrest⟩⟩
    · cases h.symm.trans hmissing
    · cases h.symm.trans hbad
    · obtain ⟨rest,hps,-⟩ := map_eq_ok.mp (hrest.symm.trans h)
      intro q hq
      rcases List.mem_cons.mp hq with rfl | hq
      · exact List.mem_map.mpr ⟨_,hv,rfl⟩
      · exact ih hps q hq

/-- Names that are there once are looked up in any order. -/
theorem parameters_perm {params' : List (String × ZclValue)} (hperm : params'.Perm params)
    (hnodup : (params.map Prod.fst).Nodup) (ps : List ParamDef) :
    parameters command params' ps = parameters command params ps := by
  induction ps with
  | nil => rfl
  | cons p ps ih => rw [parameters,parameters,find?_perm_of_nodup Prod.fst hperm hnodup p.name,ih]

/-- A refusal is one in every order, for one reason. -/
theorem Refused.parameters (command : String) {ps : List ParamDef} (h : Refused params ps) :
    ∃ e, ∀ params', params'.Perm params → parameters command params' ps = .error e := by
  induction ps with
  | nil => cases h
  | cons p ps ih =>
    by_cases hsome : ∃ v, (p.name,v) ∈ params
    · obtain ⟨v,hv⟩ := hsome
      rcases h with ⟨detail,hdetail⟩ | ⟨hok,hrest⟩
      · refine ⟨.badValue p.name detail,fun params' hperm => ?_⟩
        rcases parameters_cons command params' p ps with
          ⟨hnone,-⟩ | ⟨w,-,hw,⟨e,he,hbad⟩ | ⟨bytes,hbytes,-⟩⟩
        · exact absurd (hperm.mem_iff.mpr hv) (hnone v)
        · obtain ⟨e',he',htext⟩ := hdetail w (hperm.mem_iff.mp hw)
          obtain rfl := Except.error.inj (he.symm.trans he')
          rw [hbad,htext]
        · obtain ⟨e',he',-⟩ := hdetail w (hperm.mem_iff.mp hw)
          cases hbytes.symm.trans he'
      · obtain ⟨e,he⟩ := ih hrest
        refine ⟨e,fun params' hperm => ?_⟩
        rcases parameters_cons command params' p ps with
          ⟨hnone,-⟩ | ⟨w,-,hw,⟨e',he',-⟩ | ⟨bytes,-,hps⟩⟩
        · exact absurd (hperm.mem_iff.mpr hv) (hnone v)
        · obtain ⟨bytes,hbytes⟩ := hok w (hperm.mem_iff.mp hw)
          cases hbytes.symm.trans he'
        · rw [hps,he params' hperm]
          rfl
    · refine ⟨.missingParameter command p.name,fun params' hperm => ?_⟩
      rcases parameters_cons command params' p ps with ⟨-,hmissing⟩ | ⟨w,-,hw,-⟩
      · exact hmissing
      · exact absurd ⟨w,hperm.mem_iff.mp hw⟩ hsome

/-- What fails for one reason in every order is a refusal: any value supplied for a parameter can
be made the first. -/
theorem refused_of_parameters {ps : List ParamDef} (hdistinct : (ps.map ParamDef.name).Nodup)
    {e : EncodeError}
    (h : ∀ params', params'.Perm params → parameters command params' ps = .error e) :
    Refused params ps := by
  induction ps with
  | nil => cases h params (.refl _)
  | cons p ps ih =>
    obtain ⟨hfresh,hdistinct⟩ := List.nodup_cons.mp hdistinct
    have hfirst : ∀ v, (p.name,v) ∈ params → ∃ params', params'.Perm params ∧
        supplied params' p = some (p.name,v) :=
      fun v hv => exists_perm_find? hv (by simp)
    by_cases hbad : ∃ detail, e = .badValue p.name detail
    · obtain ⟨detail,rfl⟩ := hbad
      refine .inl ⟨detail,fun v hv => ?_⟩
      obtain ⟨params',hperm,hsupplied⟩ := hfirst v hv
      have herror := h params' hperm
      rcases parameters_cons command params' p ps with
        ⟨-,hmissing⟩ | ⟨w,hw,-,⟨e,he,htext⟩ | ⟨bytes,-,hrest⟩⟩
      · cases hmissing.symm.trans herror
      · obtain ⟨-,rfl⟩ := Prod.mk.inj (Option.some.inj (hsupplied.symm.trans hw))
        exact ⟨e,he,(EncodeError.badValue.inj (Except.error.inj (htext.symm.trans herror))).2⟩
      -- The parameters after this one have other names.
      · obtain ⟨q,hq,hname⟩ := parameters_error (map_eq_error.mp (hrest.symm.trans herror))
        simp only [reduceCtorEq,EncodeError.badValue.injEq,false_or] at hname
        obtain ⟨_,hname,-⟩ := hname
        exact absurd (List.mem_map.mpr ⟨q,hq,hname.symm⟩) hfresh
    · by_cases hsome : ∃ v, (p.name,v) ∈ params
      · obtain ⟨v,hv⟩ := hsome
        refine .inr ⟨fun w hw => ?_,ih hdistinct fun params' hperm => ?_⟩
        · obtain ⟨params',hperm,hsupplied⟩ := hfirst w hw
          rcases parameters_cons command params' p ps with
            ⟨hnone,-⟩ | ⟨w',hw',-,⟨e',-,htext⟩ | ⟨bytes,hbytes,-⟩⟩
          · exact absurd (hperm.mem_iff.mpr hw) (hnone w)
          · exact absurd ⟨_,Except.error.inj ((h params' hperm).symm.trans htext)⟩ hbad
          · obtain ⟨-,rfl⟩ := Prod.mk.inj (Option.some.inj (hsupplied.symm.trans hw'))
            exact ⟨bytes,hbytes⟩
        · have herror := h params' hperm
          rcases parameters_cons command params' p ps with
            ⟨hnone,-⟩ | ⟨w,-,-,⟨e',-,htext⟩ | ⟨bytes,-,hrest⟩⟩
          · exact absurd (hperm.mem_iff.mpr hv) (hnone v)
          · exact absurd ⟨_,Except.error.inj (herror.symm.trans htext)⟩ hbad
          · exact map_eq_error.mp (hrest.symm.trans herror)
      · exact .inl ⟨"",fun v hv => absurd ⟨v,hv⟩ hsome⟩

end Walk

section Payload
variable {definition : CommandDef} {params : List (String × ZclValue)}

/-- The payload of a typed command: unknown names are looked for before anything is encoded. -/
def payload (definition : CommandDef) (params : List (String × ZclValue)) :
    Except EncodeError Bytes :=
  match params.find? fun s => !definition.params.any fun p => p.name = s.1 with
  | some (name,_) => .error (.unknownParameter definition.name name)
  | none => parameters definition.name params definition.params

theorem undeclared_iff {name : String} :
    (!definition.params.any fun p => p.name = name) = true ↔ ¬ definition.Declares name := by
  simp [CommandDef.Declares]

/-- What the parameters supplied come to: a name not declared, or the declared ones in turn. -/
theorem payload_cases (definition : CommandDef) (params : List (String × ZclValue)) :
    (∃ s ∈ params, ¬ definition.Declares s.1 ∧
      payload definition params = .error (.unknownParameter definition.name s.1)) ∨
    (∀ s ∈ params, definition.Declares s.1) ∧
      payload definition params = parameters definition.name params definition.params := by
  rw [payload]
  cases hfound : params.find? fun s => !definition.params.any fun p => p.name = s.1 with
  | none =>
    refine .inr ⟨fun s hs => ?_,rfl⟩
    have hdeclared := List.find?_eq_none.mp hfound s hs
    rwa [undeclared_iff,not_not] at hdeclared
  | some s =>
    have hundeclared := List.find?_some hfound
    exact .inl ⟨s,List.mem_of_find?_eq_some hfound,undeclared_iff.mp hundeclared,rfl⟩

/-- At most one name is not declared. If all are, none is supplied twice, or the parameters are
refused whichever values are taken. -/
structure Unambiguous (definition : CommandDef) (params : List (String × ZclValue)) : Prop where
  undeclared : ∀ s ∈ params, ∀ s' ∈ params, ¬ definition.Declares s.1 →
    ¬ definition.Declares s'.1 → s.1 = s'.1
  declared : (∀ s ∈ params, definition.Declares s.1) →
    (params.map Prod.fst).Nodup ∨ Refused params definition.params

/-- Names that are all declared, and only once, are the declared ones when nothing is missing. -/
theorem perm_names {payload : Bytes} (hdistinct : (definition.params.map ParamDef.name).Nodup)
    (hdeclared : ∀ s ∈ params, definition.Declares s.1) (hnodup : (params.map Prod.fst).Nodup)
    (hok : parameters definition.name params definition.params = .ok payload) :
    (params.map Prod.fst).Perm (definition.params.map ParamDef.name) := by
  refine (List.perm_ext_iff_of_nodup hnodup hdistinct).mpr fun name => ⟨?_,?_⟩
  · intro hname
    obtain ⟨s,hs,rfl⟩ := List.mem_map.mp hname
    exact hdeclared s hs
  · intro hname
    obtain ⟨p,hp,rfl⟩ := List.mem_map.mp hname
    exact declared_of_parameters_ok hok p hp

/-- The order is no part of a payload, which takes each declared name once. -/
structure PayloadAsSet (definition : CommandDef) (params : List (String × ZclValue)) : Prop where
  unordered : ∀ params', params'.Perm params → payload definition params' =
    payload definition params
  exact : ∀ bytes, payload definition params = .ok bytes →
    (params.map Prod.fst).Perm (definition.params.map ParamDef.name)

theorem Unambiguous.payloadAsSet (hdistinct : (definition.params.map ParamDef.name).Nodup)
    (h : Unambiguous definition params) : PayloadAsSet definition params := by
  rcases payload_cases definition params with ⟨s,hs,hundeclared,hpayload⟩ | ⟨hdeclared,hpayload⟩
  · refine ⟨fun params' hperm => ?_,fun bytes hok => ?_⟩
    · rcases payload_cases definition params' with ⟨s',hs',hundeclared',hpayload'⟩ | ⟨hall,-⟩
      · rw [hpayload,hpayload',h.undeclared s hs s' (hperm.subset hs') hundeclared hundeclared']
      · exact absurd (hall s (hperm.mem_iff.mpr hs)) hundeclared
    · cases hpayload.symm.trans hok
  · have hsame : ∀ params', params'.Perm params → payload definition params' =
        parameters definition.name params' definition.params := by
      intro params' hperm
      rcases payload_cases definition params' with ⟨s,hs,hundeclared,-⟩ | ⟨-,hpayload'⟩
      · exact absurd (hdeclared s (hperm.subset hs)) hundeclared
      · exact hpayload'
    rcases h.declared hdeclared with hnodup | hrefused
    · refine ⟨fun params' hperm => ?_,fun bytes hok => ?_⟩
      · rw [hpayload,hsame params' hperm,parameters_perm hperm hnodup]
      · exact perm_names hdistinct hdeclared hnodup (hpayload.symm.trans hok)
    · obtain ⟨e,he⟩ := hrefused.parameters definition.name
      refine ⟨fun params' hperm => ?_,fun bytes hok => ?_⟩
      · rw [hpayload,hsame params' hperm,he params' hperm,he params (.refl _)]
      · cases (he params (.refl _)).symm.trans (hpayload.symm.trans hok)

theorem PayloadAsSet.unambiguous (hdistinct : (definition.params.map ParamDef.name).Nodup)
    (h : PayloadAsSet definition params) : Unambiguous definition params := by
  have hunknown : ∀ s ∈ params, ¬ definition.Declares s.1 →
      payload definition params = .error (.unknownParameter definition.name s.1) := by
    intro s hs hundeclared
    obtain ⟨params',hperm,hfound⟩ := exists_perm_find?
      (p := fun s => !definition.params.any fun p => p.name = s.1) hs
      (undeclared_iff.mpr hundeclared)
    rw [← h.unordered params' hperm,payload,hfound]
  refine ⟨fun s hs s' hs' hundeclared hundeclared' => ?_,fun hdeclared => ?_⟩
  · have hnames := (hunknown s hs hundeclared).symm.trans (hunknown s' hs' hundeclared')
    exact (EncodeError.unknownParameter.inj (Except.error.inj hnames)).2
  · have hsame : ∀ params', params'.Perm params →
        parameters definition.name params' definition.params = payload definition params := by
      intro params' hperm
      rw [← h.unordered params' hperm]
      rcases payload_cases definition params' with ⟨s,hs,hundeclared,-⟩ | ⟨-,hpayload⟩
      · exact absurd (hdeclared s (hperm.subset hs)) hundeclared
      · exact hpayload.symm
    cases hpayload : payload definition params with
    | ok bytes => exact .inl ((h.exact bytes hpayload).nodup_iff.mpr hdistinct)
    | error e =>
      exact .inr (refused_of_parameters hdistinct fun params' hperm =>
        (hsame params' hperm).trans hpayload)

end Payload

section Command
variable {registry : ClusterRegistry} {device : Ieee} {tsn : UInt8} {request : ZclCommand}

/-- The parameters of a request are matched as a set: their order makes no difference, what is
sent takes exactly the declared names, and a name supplied twice is refused. -/
structure MatchesAsSet (registry : ClusterRegistry) (device : Ieee) (tsn : UInt8)
    (request : ZclCommand) : Prop where
  unordered : ∀ params, params.Perm request.params →
    command registry device tsn { request with params := params } =
      command registry device tsn request
  exact : ∀ frame, command registry device tsn request = .ok frame →
    ∃ definition, registry.commandDef device request = some definition ∧
      (request.params.map Prod.fst).Perm (definition.params.map ParamDef.name)
  repeated : ¬ (request.params.map Prod.fst).Nodup →
    ∃ e, command registry device tsn request = .error e

/-- A typed command is its payload under the header. -/
theorem command_eq_payload (tsn : UInt8) {definition : CommandDef}
    (hdefinition : registry.commandDef device request = some definition)
    (htyped : definition.untypedParameters = false) (params : List (String × ZclValue)) :
    command registry device tsn { request with params := params } =
      (payload definition params).map fun bytes =>
        ZclFrame.encode ⟨commandHeader tsn request,bytes⟩ := by
  obtain ⟨cluster,hcluster,hlookup⟩ := Option.bind_eq_some_iff.mp hdefinition
  rw [command,payload]
  dsimp only
  rw [hcluster]
  dsimp only
  rw [hlookup]
  dsimp only
  rw [htyped]
  cases params.find? fun s => !definition.params.any fun p => p.name = s.1 <;> rfl

/-- Without a typed definition the parameters are not looked at. -/
theorem command_cases (registry : ClusterRegistry) (device : Ieee) (tsn : UInt8)
    (request : ZclCommand) :
    (∃ definition, registry.commandDef device request = some definition ∧
      definition.untypedParameters = false) ∨
    ∃ e, ∀ params, command registry device tsn { request with params := params } = .error e := by
  cases hcluster : registry.get (some device) request.cluster with
  | none =>
    exact .inr ⟨.unknownCluster request.cluster.raw,fun params => by simp [command,hcluster]⟩
  | some cluster =>
    cases hlookup : cluster.commands.lookup request.command.raw with
    | none =>
      exact .inr ⟨.unknownCommand request.cluster.raw request.command.raw,
        fun params => by simp [command,hcluster,hlookup]⟩
    | some definition =>
      cases htyped : definition.untypedParameters with
      | false => exact .inl ⟨definition,Option.bind_eq_some_iff.mpr ⟨cluster,hcluster,hlookup⟩,htyped⟩
      | true =>
        exact .inr ⟨.untypedParameters definition.name,
          fun params => by simp [command,hcluster,hlookup,htyped]⟩

theorem encode_header_inj {h : ZclHeader} {p q : Bytes} :
    ZclFrame.encode ⟨h,p⟩ = ZclFrame.encode ⟨h,q⟩ ↔ p = q :=
  List.append_right_inj _

theorem MatchesAsSet.payloadAsSet {definition : CommandDef}
    (hdefinition : registry.commandDef device request = some definition)
    (htyped : definition.untypedParameters = false)
    (h : MatchesAsSet registry device tsn request) : PayloadAsSet definition request.params := by
  have heq := command_eq_payload tsn hdefinition htyped
  constructor
  · intro params hperm
    have hsame := (heq params).symm.trans ((h.unordered params hperm).trans (heq request.params))
    exact map_inj (fun _ _ => encode_header_inj.mp) hsame
  · intro bytes hok
    have hown := heq request.params
    rw [hok] at hown
    obtain ⟨definition',hdefinition',hnames⟩ := h.exact _ hown
    obtain rfl := Option.some.inj (hdefinition.symm.trans hdefinition')
    exact hnames

theorem PayloadAsSet.matchesAsSet {definition : CommandDef}
    (hdefinition : registry.commandDef device request = some definition)
    (htyped : definition.untypedParameters = false)
    (hdistinct : (definition.params.map ParamDef.name).Nodup)
    (h : PayloadAsSet definition request.params) : MatchesAsSet registry device tsn request := by
  have heq := command_eq_payload tsn hdefinition htyped
  have hexact : ∀ frame, command registry device tsn request = .ok frame →
      (request.params.map Prod.fst).Perm (definition.params.map ParamDef.name) := by
    intro frame hframe
    obtain ⟨bytes,hok,-⟩ := map_eq_ok.mp ((heq request.params).symm.trans hframe)
    exact h.exact bytes hok
  refine ⟨fun params hperm => ?_,fun frame hframe => ⟨definition,hdefinition,hexact frame hframe⟩,
    fun hrepeated => ?_⟩
  · rw [heq params,h.unordered params hperm]
    exact (heq request.params).symm
  · cases hframe : command registry device tsn request with
    | error e => exact ⟨e,rfl⟩
    | ok frame => exact absurd ((hexact frame hframe).nodup_iff.mpr hdistinct) hrepeated

/-- The parameters of a request are matched as a set exactly when there is no more than one
undeclared name among them and, if there is none, no name twice, unless they are refused
whichever of the values is taken. -/
theorem matchesAsSet_iff (hdistinct : registry.Distinct) (device : Ieee) (tsn : UInt8)
    (request : ZclCommand) : MatchesAsSet registry device tsn request ↔
      ∀ definition, registry.commandDef device request = some definition →
        definition.untypedParameters = false → Unambiguous definition request.params := by
  constructor
  · intro h definition hdefinition htyped
    exact (h.payloadAsSet hdefinition htyped).unambiguous (hdistinct.commandDef hdefinition)
  · intro h
    rcases command_cases registry device tsn request with ⟨definition,hdefinition,htyped⟩ | ⟨e,he⟩
    · have hnames := hdistinct.commandDef hdefinition
      exact ((h definition hdefinition htyped).payloadAsSet hnames).matchesAsSet hdefinition htyped
        hnames
    · have hown := he request.params
      refine ⟨fun params _ => (he params).trans hown.symm,fun frame hframe => ?_,
        fun _ => ⟨e,hown⟩⟩
      cases hown.symm.trans hframe

end Command

section Repeated

/-- A level that is there twice, with different values. -/
def twice : ZclCommand :=
  { sampleRequest with params := [("level",.uint 5),("name",.str "up"),("level",.uint 200)] }

theorem sampleCluster_distinct : (ClusterRegistry.insertGlobal {} sampleCluster).Distinct :=
  ClusterRegistry.distinct_empty.insertGlobal (ClusterDef.distinct_new.cmd (by decide))

/-- Both parameters are there once: their order makes no difference. -/
theorem sample_matches :
    MatchesAsSet (.insertGlobal {} sampleCluster) ⟨1⟩ 0x2a sampleRequest := by
  refine (matchesAsSet_iff sampleCluster_distinct _ _ _).mpr fun definition hdefinition _ => ?_
  obtain rfl := Option.some.inj (hdefinition.symm.trans
    (show _ = some (ClusterDef.command 0x02 "adjust" [("level",.uint 1),("name",.charStr)]) by rfl))
  refine ⟨?_,fun _ => .inl (by decide)⟩
  simp [sampleRequest,CommandDef.Declares,ClusterDef.command]

/-- The first of two levels is sent, and no error reports the second. -/
theorem twice_sent : ¬ ∀ (registry : ClusterRegistry) (device : Ieee) (tsn : UInt8)
    (request : ZclCommand), registry.Distinct → MatchesAsSet registry device tsn request := by
  intro h
  obtain ⟨e,he⟩ := (h _ ⟨1⟩ 0x2a twice sampleCluster_distinct).repeated (by decide)
  have hsent : command (.insertGlobal {} sampleCluster) ⟨1⟩ 0x2a twice =
      .ok [0x15,0x5f,0x11,0x2a,0x02,0x05,0x02,0x75,0x70] := by
    decide +kernel
  cases hsent.symm.trans he

end Repeated

end Encode
end Rszigbee
