import Rszigbee.Encode
import Rszigbee.Fidelity

/-! A command that was encoded, decoded again by its receiver. -/
namespace Rszigbee
namespace Encode

/-- The value supplied under a declared name. -/
def supplied (params : List (String × ZclValue)) (p : ParamDef) : Option (String × ZclValue) :=
  params.find? fun s => s.1 = p.name

theorem supplied_fst {params : List (String × ZclValue)} {p : ParamDef} {s : String × ZclValue}
    (h : supplied params p = some s) : s.1 = p.name := by
  simpa using List.find?_some h

/-- What decoding can yield for a type is read back from the bytes it was accepted as. -/
theorem readsBack_of_yields {ty : ZclType} (hty : ty.Canonical) {v : ZclValue} {out : Bytes}
    (hyields : ty.Yields v) (hout : encodeValue v ty = .ok out) : ty.ReadsBack v out := by
  obtain ⟨r,r',hread⟩ := hyields
  rcases holds_of_decode hty hread with hholds | ⟨hwidened,x,rfl⟩
  · obtain ⟨out',hout',hback⟩ := readsBack_holds hty hholds
    rw [hout] at hout'
    cases hout'
    exact hback
  · rw [encodeValue_widened hwidened] at hout
    cases hout

/-- Supplied parameters carry the names they were looked up by. -/
theorem names_of_supplied {params values : List (String × ZclValue)} {ps : List ParamDef}
    (h : values.map some = ps.map (supplied params)) :
    values.map Prod.fst = ps.map ParamDef.name := by
  induction ps generalizing values with
  | nil => simpa using h
  | cons p ps ih =>
    cases values with
    | nil => simp at h
    | cons v vs =>
      simp only [List.map_cons,List.cons.injEq] at h ⊢
      exact ⟨supplied_fst h.1.symm,ih h.2⟩

section Parameters
variable {name : String} {params : List (String × ZclValue)}

/-- What becomes of the first parameter: it is missing, refused, or written before the rest. -/
theorem parameters_cons (name : String) (params : List (String × ZclValue)) (p : ParamDef)
    (ps : List ParamDef) :
    (∀ v, (p.name,v) ∉ params) ∧
        parameters name params (p::ps) = .error (.missingParameter name p.name) ∨
      ∃ v, supplied params p = some (p.name,v) ∧ (p.name,v) ∈ params ∧
        ((∃ e, encodeValue v p.ty = .error e ∧
            parameters name params (p::ps) = .error (.badValue p.name e.toText)) ∨
          ∃ bytes, encodeValue v p.ty = .ok bytes ∧ parameters name params (p::ps) =
            (parameters name params ps).map fun rest => bytes ++ rest) := by
  rw [parameters]
  cases hfound : params.find? fun s => s.1 = p.name with
  | none =>
    refine .inl ⟨fun v hv => ?_,rfl⟩
    simpa using List.find?_eq_none.mp hfound _ hv
  | some s =>
    have hname : s.1 = p.name := supplied_fst hfound
    have hmem := List.mem_of_find?_eq_some hfound
    obtain ⟨given,v⟩ := s
    obtain rfl : given = p.name := hname
    refine .inr ⟨v,hfound,hmem,?_⟩
    dsimp only
    cases hbytes : encodeValue v p.ty with
    | error e => exact .inl ⟨e,rfl,rfl⟩
    | ok bytes => exact .inr ⟨bytes,rfl,rfl⟩

/-- The walk by name and the walk by position meet: each parameter is read where it was written. -/
theorem params_parameters {ps : List ParamDef} {payload : Bytes}
    (hpayload : parameters name params ps = .ok payload)
    (hty : ∀ p ∈ ps, p.ty.Canonical ∧ ∀ o, p.ty ≠ .unknown o)
    (hvalue : ∀ p ∈ ps, ∀ s, supplied params p = some s → p.ty.Yields s.2) :
    ∃ values, values.map some = ps.map (supplied params) ∧
      ∀ pos, Decode.params ps ⟨payload,pos⟩ = values := by
  induction ps generalizing payload with
  | nil => exact ⟨[],rfl,fun _ => rfl⟩
  | cons p ps ih =>
    rcases parameters_cons name params p ps with
      ⟨-,hmissing⟩ | ⟨v,hfound,-,⟨e,-,hbad⟩ | ⟨bytes,hbytes,hrest⟩⟩
    · cases hmissing.symm.trans hpayload
    · cases hbad.symm.trans hpayload
    · obtain ⟨rest,hps,rfl⟩ := map_eq_ok.mp (hrest.symm.trans hpayload)
      obtain ⟨values,hvalues,hparams⟩ := ih hps
        (fun q hq => hty q (List.mem_cons_of_mem _ hq))
        (fun q hq => hvalue q (List.mem_cons_of_mem _ hq))
      have hp := hty p List.mem_cons_self
      have hback := readsBack_of_yields hp.1 (hvalue p List.mem_cons_self _ hfound) hbytes
      refine ⟨(p.name,v)::values,by simp [hfound,hvalues],fun pos => ?_⟩
      have hread := hback rest pos fun o ho => absurd ho (hp.2 o)
      rw [Decode.params,hread]
      dsimp only
      rw [hparams]

end Parameters

/-- The header of a command. -/
def commandHeader (tsn : UInt8) (request : ZclCommand) : ZclHeader :=
  { ZclHeader.specific tsn request.command with
    manufacturer := request.manufacturer.map .mk
    disableDefaultResponse := request.disableDefaultResponse }

/-- What an encoded command consists of. -/
theorem command_ok {registry : ClusterRegistry} {device : Ieee} {tsn : UInt8}
    {request : ZclCommand} {frame : Bytes}
    (hframe : command registry device tsn request = .ok frame)
    {cluster : ClusterDef} (hcluster : registry.get (some device) request.cluster = some cluster)
    {definition : CommandDef}
    (hdefinition : cluster.commands.lookup request.command.raw = some definition) :
    ∃ payload, parameters definition.name request.params definition.params = .ok payload ∧
      frame = ZclFrame.encode ⟨commandHeader tsn request,payload⟩ := by
  rw [command,hcluster] at hframe
  dsimp only at hframe
  rw [hdefinition] at hframe
  dsimp only at hframe
  by_cases huntyped : definition.untypedParameters = true
  · rw [if_pos huntyped] at hframe
    cases hframe
  · rw [if_neg huntyped] at hframe
    split at hframe
    · cases hframe
    · obtain ⟨payload,hpayload,hencode⟩ := map_eq_ok.mp hframe
      exact ⟨payload,hpayload,hencode.symm⟩

/-- The receiver of an encoded command sees the request: its command under the registry's name,
the declared parameters in their order with the values given, and the header asked for. -/
theorem command_decoded {registry : ClusterRegistry} {device : Ieee} {tsn : UInt8}
    {request : ZclCommand} {frame : Bytes}
    (hframe : command registry device tsn request = .ok frame)
    {cluster : ClusterDef} (hcluster : registry.get (some device) request.cluster = some cluster)
    {definition : CommandDef}
    (hdefinition : cluster.commands.lookup request.command.raw = some definition)
    (hty : ∀ p ∈ definition.params, p.ty.Canonical ∧ ∀ o, p.ty ≠ .unknown o)
    (hvalue : ∀ p ∈ definition.params, ∀ s, supplied request.params p = some s → p.ty.Yields s.2)
    {rx : ZclRx} (hrx : rx.frame = frame) (hsame : rx.cluster = request.cluster) :
    (∃ values, Decode.zclMessage registry device rx = .ok {
        ieee := device
        endpoint := rx.endpoint
        cluster := request.cluster
        kind := .command request.command.raw (some definition.name) values
        linkQuality := rx.linkQuality } ∧
      values.map some = definition.params.map (supplied request.params) ∧
      values.map Prod.fst = definition.params.map ParamDef.name) ∧
    ∃ f, ZclFrame.decode frame = .ok f ∧ f.header.tsn = tsn ∧
      f.header.manufacturer = request.manufacturer.map .mk ∧
      f.header.disableDefaultResponse = request.disableDefaultResponse := by
  obtain ⟨payload,hpayload,rfl⟩ := command_ok hframe hcluster hdefinition
  have hproper : (commandHeader tsn request).Proper :=
    ⟨show (0 : UInt8) < 8 by decide,.inr (.inl rfl)⟩
  have hdecode := ZclFrame.decode_encode (f := ⟨commandHeader tsn request,payload⟩) hproper
  obtain ⟨values,hvalues,hparams⟩ := params_parameters hpayload hty hvalue
  have hnames := names_of_supplied hvalues
  refine ⟨⟨values,?_,hvalues,hnames⟩,_,hdecode,rfl,rfl,rfl⟩
  have hkind : Decode.kind registry device rx ⟨commandHeader tsn request,payload⟩ =
      .ok (.command request.command.raw (some definition.name) values) := by
    have hlookup : (if (commandHeader tsn request).direction = .serverToClient then
        cluster.responses else cluster.commands).lookup
          (commandHeader tsn request).command.raw = some definition := hdefinition
    show Decode.specific registry device rx ⟨commandHeader tsn request,payload⟩ = _
    rw [Decode.specific,hsame,hcluster]
    dsimp only
    rw [hlookup]
    dsimp only
    rw [Reader.new,hparams]
    rfl
  rw [Decode.zclMessage,hrx,hdecode]
  dsimp only
  rw [hkind,hsame]
  rfl

section Sample

/-- A cluster with one command, of a level and a name. -/
def sampleCluster : ClusterDef :=
  (ClusterDef.new 0xfc00 "sample").cmd 0x02 "adjust" [("level",.uint 1),("name",.charStr)]

/-- A request that gives the parameters the other way round. -/
def sampleRequest : ZclCommand where
  endpoint := none
  cluster := ⟨0xfc00⟩
  command := ⟨0x02⟩
  params := [("name",.str "up"),("level",.uint 5)]
  manufacturer := some 0x115f
  disableDefaultResponse := true

def sampleRx : ZclRx where
  ieee := some ⟨1⟩
  nwk := ⟨0x1234⟩
  endpoint := ⟨1⟩
  destinationEndpoint := ⟨1⟩
  cluster := ⟨0xfc00⟩
  group := none
  wasBroadcast := false
  linkQuality := none
  frame := [0x15,0x5f,0x11,0x2a,0x02,0x05,0x02,0x75,0x70]

theorem command_decoded_sample : ∃ values,
    Decode.zclMessage (ClusterRegistry.insertGlobal {} sampleCluster) ⟨1⟩ sampleRx = .ok {
        ieee := ⟨1⟩
        endpoint := sampleRx.endpoint
        cluster := sampleRequest.cluster
        kind := .command sampleRequest.command.raw (some "adjust") values
        linkQuality := sampleRx.linkQuality } ∧
      values.map some = [some ("level",.uint 5),some ("name",.str "up")] ∧
      values.map Prod.fst = ["level","name"] := by
  have hframe : command (.insertGlobal {} sampleCluster) ⟨1⟩ 0x2a sampleRequest =
      .ok sampleRx.frame := by
    decide +kernel
  have hcluster : (ClusterRegistry.insertGlobal {} sampleCluster).get (some ⟨1⟩)
      sampleRequest.cluster = some sampleCluster := by
    rfl
  have hdefinition : sampleCluster.commands.lookup sampleRequest.command.raw =
      some (ClusterDef.command 0x02 "adjust" [("level",.uint 1),("name",.charStr)]) := by
    decide
  refine (command_decoded hframe hcluster hdefinition ?_ ?_ rfl rfl).1
  · intro p hp
    simp [ClusterDef.command] at hp
    rcases hp with rfl | rfl
    · exact ⟨ZclType.canonical_iff.mpr ⟨0x20,by decide⟩,by simp⟩
    · exact ⟨ZclType.canonical_iff.mpr ⟨0x42,by decide⟩,by simp⟩
  · intro p hp s hs
    simp [ClusterDef.command] at hp
    rcases hp with rfl | rfl
    · cases hs
      exact ⟨.new [5],⟨[],1⟩,by decide⟩
    · cases hs
      exact ⟨.new [2,0x75,0x70],⟨[],3⟩,by decide⟩

end Sample

end Encode
end Rszigbee
