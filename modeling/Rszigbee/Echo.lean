import Rszigbee.Commands
import Rszigbee.Floats
import Rszigbee.History
import Rszigbee.Intents

/-! A published state sent back to the device it is of: what it is read as, and what it
commands. -/
namespace Rszigbee

/-- A float that is a whole number of at most 2⁵³. -/
def smallWhole (x : Float) : Option ℤ :=
  ((Floats.number x).bind Floats.whole).filter fun n => |n| ≤ 2 ^ 53

mutual

/-- What a value is once it was published and read: names are plain texts, small whole floats
are integers, and floats that are no numbers are nothing. -/
def normal : StateValue → StateValue
  | .bool b => .bool b
  | .int i => .int i
  | .float x =>
    match smallWhole x with
    | some n => .int (.ofInt n)
    | none => if (Floats.number x).isSome then .float x else .null
  | .str s | .enum s => .str s
  | .list items => .list (normalItems items)
  | .map entries => .map (normalFields entries)
  | .null => .null

def normalItems : List StateValue → List StateValue
  | [] => []
  | v::vs => normal v::normalItems vs

def normalFields : List (String × StateValue) → List (String × StateValue)
  | [] => []
  | (k,v)::entries => (k,normal v)::normalFields entries

end

/-- Of a boolean that is published as a word, the word is read. -/
def normalOf (name : String) (value : StateValue) : StateValue :=
  match value, booleanRendering name with
  | .bool b, some (yes,no) => .str (if b then yes else no)
  | value, _ => normal value

mutual

/-- The keys of every map in a value stand in order, each once. -/
def StateValue.Sorted : StateValue → Prop
  | .list items => SortedItems items
  | .map entries => (entries.map Prod.fst).Pairwise (· < ·) ∧ SortedFields entries
  | _ => True

def SortedItems : List StateValue → Prop
  | [] => True
  | v::vs => v.Sorted ∧ SortedItems vs

def SortedFields : List (String × StateValue) → Prop
  | [] => True
  | (_,v)::entries => v.Sorted ∧ SortedFields entries

end

section Numbers

theorem isFinite_eq (x : Float) : isFinite x = (Floats.number x).isSome := by
  unfold isFinite Floats.number
  cases x.toModel.unpack <;> rfl

/-- A float is published as an integer exactly when it is a small whole number, and as that. -/
theorem integral_eq (x : Float) : integral x = (smallWhole x).map Int64.ofInt := by
  unfold integral smallWhole Floats.number
  cases x.toModel.unpack with
  | infinity sign => rfl
  | notANumber => rfl
  | zero sign => rfl
  | finite sign mantissa exponent hpos =>
    have hwhole := Floats.whole_mul_zpow mantissa exponent
    cases sign with
    | positive =>
      simp only [Option.bind_some,hwhole]
      generalize Floats.exactly mantissa exponent = magnitude
      cases magnitude with
      | none => rfl
      | some n => by_cases hn : n ≤ 9007199254740992 <;> simp [Option.filter,hn]
    | negative =>
      simp only [Option.bind_some,Floats.whole_neg,hwhole]
      generalize Floats.exactly mantissa exponent = magnitude
      cases magnitude with
      | none => rfl
      | some n => by_cases hn : n ≤ 9007199254740992 <;> simp [Option.filter,hn]

theorem roundFloat_eq {x : Float} {n : ℤ} (h : smallWhole x = some n) :
    roundFloat x = some n := by
  unfold smallWhole Floats.number at h
  unfold roundFloat
  cases hx : x.toModel.unpack with
  | infinity sign => simp [hx] at h
  | notANumber => simp [hx] at h
  | zero sign =>
    have hzero : Floats.whole 0 = some 0 := rfl
    simpa [hx,hzero,Option.filter] using h
  | finite sign mantissa exponent hpos =>
    rw [hx] at h
    dsimp only at h
    have hwhole := Floats.whole_mul_zpow mantissa exponent
    cases hmagnitude : Floats.exactly mantissa exponent with
    | none =>
      rw [hmagnitude] at hwhole
      cases sign <;> simp [Floats.whole_neg,hwhole] at h
    | some magnitude =>
      rw [hmagnitude] at hwhole
      have hrounded := Floats.rounded_of_exactly hmagnitude
      cases sign with
      | positive =>
        simp only [Option.bind_some,hwhole,Option.map_some,Option.filter_eq_some_iff] at h
        obtain ⟨hn,hsmall⟩ := h
        obtain rfl := Option.some.inj hn
        have hle : magnitude ≤ 2 ^ 53 := by simpa using hsmall
        simp only [hrounded,if_pos hle]
        rfl
      | negative =>
        simp only [Option.bind_some,Floats.whole_neg,hwhole,Option.map_some,
          Option.filter_eq_some_iff] at h
        obtain ⟨hn,hsmall⟩ := h
        obtain rfl := Option.some.inj hn
        have hle : magnitude ≤ 2 ^ 53 := by simpa using hsmall
        simp only [hrounded,if_pos hle]
        rfl

end Numbers

section Values

theorem fromJson_int (i : Int64) : fromJson (.int i) = .int i := by
  rw [Json.int,Number.ofI64]
  split
  · rfl
  · rename_i hneg
    have hlt : i.toUInt64.toNat < 2 ^ 63 := by
      have hbits : i.toInt = if 2 * i.toUInt64.toNat < 2 ^ 64 then (i.toUInt64.toNat : ℤ)
        else i.toUInt64.toNat - 2 ^ 64 := BitVec.toInt_eq_toNat_cond i.toBitVec
      have hnonneg : 0 ≤ i.toInt := by simpa [Int64.lt_iff_toInt_lt] using hneg
      have hbound := i.toUInt64.toNat_lt
      split at hbits <;> omega
    have hasI64 : (Number.posInt i.toUInt64).asI64 = some i := by
      rw [Number.asI64,if_pos hlt]
      simp
    rw [fromJson,hasI64]
    rfl

theorem map_fst_toFields (entries : List (String × StateValue)) :
    (toFields entries).map Prod.fst = entries.map Prod.fst := by
  induction entries with
  | nil => rfl
  | cons e entries ih => simp [toFields,ih]

/-- What is in order already is collected as it is. -/
theorem ofFields_sorted {fields : List (String × Json)}
    (h : (fields.map Prod.fst).Pairwise (· < ·)) : Json.ofFields fields = .object fields := by
  rw [Json.ofFields,Ordered.entries_ofList h]

mutual

theorem fromJson_toJson : ∀ {v : StateValue}, v.Sorted → fromJson (toJson v) = normal v
  | .bool _, _ => rfl
  | .int i, _ => fromJson_int i
  | .float x, _ => by
    rw [toJson,normal,integral_eq]
    cases smallWhole x with
    | some n => exact fromJson_int _
    | none =>
      show fromJson (.float x) = if (Floats.number x).isSome then .float x else .null
      rw [Json.float,Number.ofF64,isFinite_eq]
      cases (Floats.number x).isSome <;> rfl
  | .str _, _ => rfl
  | .enum _, _ => rfl
  | .list items, h => by
    rw [toJson,normal,fromJson,fromItems_toItems h]
  | .map entries, h => by
    have hsorted : ((toFields entries).map Prod.fst).Pairwise (· < ·) := by
      rw [map_fst_toFields]
      exact h.1
    rw [toJson,normal,ofFields_sorted hsorted,fromJson,fromFields_toFields h.2]
  | .null, _ => rfl

theorem fromItems_toItems : ∀ {items : List StateValue}, SortedItems items →
    fromItems (toItems items) = normalItems items
  | [], _ => rfl
  | v::vs, h => by
    rw [toItems,fromItems,normalItems,fromJson_toJson h.1,fromItems_toItems h.2]

theorem fromFields_toFields : ∀ {entries : List (String × StateValue)}, SortedFields entries →
    fromFields (toFields entries) = normalFields entries
  | [], _ => rfl
  | (k,v)::entries, h => by
    rw [toFields,fromFields,normalFields,fromJson_toJson h.1,fromFields_toFields h.2]

end

theorem fromJson_rendered (name : String) {v : StateValue} (h : v.Sorted) :
    fromJson (rendered name v) = normalOf name v := by
  cases v with
  | bool b =>
    unfold rendered normalOf
    cases booleanRendering name <;> rfl
  | int | float | str | enum | list | map | null => exact fromJson_toJson h

end Values

section Lowering

/-- What is no number is not rounded to one. -/
theorem integer_of_no_number {x : Float} (h : Floats.number x = none) :
    integer (.float x) = none := by
  unfold Floats.number at h
  rw [integer,roundFloat]
  cases hx : x.toModel.unpack with
  | infinity | notANumber => rfl
  | zero =>
    rw [hx] at h
    cases h
  | finite =>
    rw [hx] at h
    cases h

/-- A published number is read as the same number. -/
theorem integer_normalOf (name : String) (v : StateValue) :
    integer (normalOf name v) = integer v := by
  cases v with
  | bool b =>
    unfold normalOf
    split <;> rfl
  | float x =>
    have hnormal : normalOf name (.float x) = normal (.float x) := rfl
    rw [hnormal,normal]
    split
    · rename_i n hn
      rw [integer,integer,roundFloat_eq hn]
      rfl
    · cases hnumber : Floats.number x with
      | some q => rfl
      | none => exact (integer_of_no_number hnumber).symm
  | int | str | enum | list | map | null => rfl

theorem elim_eq_ok {α ε : Type} {found : Option α} {e : ε} {a : α} :
    found.elim (Except.error e) Except.ok = .ok a ↔ found = some a := by
  cases found <;> simp

theorem lower_number {debug : DebugText} {capability : CapabilityId} {v w : StateValue}
    {command : CapabilityCommand} (hname : capability.name ≠ "state") (h : integer v = integer w)
    (hv : lower debug capability v = .ok command) : lower debug capability w = .ok command := by
  simp only [lower,if_neg hname,h] at hv ⊢
  split_ifs at hv ⊢
  · exact elim_eq_ok.mpr (elim_eq_ok.mp hv)
  · exact elim_eq_ok.mpr (elim_eq_ok.mp hv)
  · exact elim_eq_ok.mpr (elim_eq_ok.mp hv)

/-- What a capability's value commands, it commands still once it was published and read. -/
theorem lower_normalOf {debug : DebugText} {capability : CapabilityId} {v : StateValue}
    {command : CapabilityCommand} (h : lower debug capability v = .ok command) :
    lower debug capability (normalOf capability.name v) = .ok command := by
  by_cases hname : capability.name = "state"
  · rw [hname]
    cases v with
    | bool b =>
      have hword : normalOf "state" (.bool b) = .str (if b then "ON" else "OFF") := rfl
      rw [hword]
      simp only [lower,hname,if_true] at h ⊢
      cases b <;> exact h
    | int i => exact h
    | str s => exact h
    | enum s =>
      have hname' : normalOf "state" (.enum s) = .str s := rfl
      have htoggle : asksToToggle (.str s) = asksToToggle (.enum s) := rfl
      have htruthy : truthy (.str s) = truthy (.enum s) := rfl
      simp only [lower,hname,hname',htoggle,htruthy,if_true] at h ⊢
      split_ifs at h ⊢
      · exact h
      · exact elim_eq_ok.mpr (elim_eq_ok.mp h)
    | float | list | map | null =>
      simp only [lower,hname,if_true] at h
      cases h
  · exact lower_number hname (integer_normalOf capability.name v).symm h

end Lowering

section Echoed

/-- What is read of a body: each field's value, under a capability of its name. -/
theorem get_parsed {fields : List (String × Json)} (h : (fields.map Prod.fst).Nodup)
    (name : String) :
    (fields.foldl (fun changes e => changes.set ⟨e.1⟩ (fromJson e.2)) StateChanges.new).get
      ⟨name⟩ = ((fields.find? fun e => e.1 = name).map Prod.snd).map fromJson := by
  have hsets : fields.foldl (fun changes e => changes.set ⟨e.1⟩ (fromJson e.2)) StateChanges.new =
      StateChanges.new.setAll (fields.map fun e => (⟨e.1⟩,fromJson e.2)) := by
    rw [StateChanges.setAll,List.foldl_map]
  have hkeys : ((fields.map fun e => ((⟨e.1⟩ : CapabilityId),fromJson e.2)).map Prod.fst).Nodup := by
    have hnames := h.map (f := CapabilityId.mk) fun _ _ heq => CapabilityId.mk.inj heq
    rwa [List.map_map] at hnames ⊢
  have hnew : StateChanges.new.get ⟨name⟩ = none := rfl
  rw [hsets,Tuya.get_setAll,hnew,Tuya.lastSet,Tuya.find?_reverse_of_nodup _ hkeys,List.find?_map]
  simp [Function.comp_def]

/-- What is published of a device that reported some changes alone, read as a request to set it,
names the same capabilities with the same values, and what the values command they command
still. -/
theorem published_echo {text : JsonText} {changes : StateChanges}
    (hsorted : ∀ e ∈ changes.entries, e.2.Sorted)
    (hread : text.fromSlice
        (text.toText (({} : DeviceState).apply text changes).1.object).toUTF8.toList =
      .ok (({} : DeviceState).apply text changes).1.object) :
    ∃ parsed, parseState text (({} : DeviceState).apply text changes).2.toUTF8.toList =
        .ok parsed ∧
      (∀ id, parsed.get id = (changes.get id).map (normalOf id.name)) ∧
      ∀ debug id value command, changes.get id = some value →
        lower debug id value = .ok command →
          ∃ echoed, parsed.get id = some echoed ∧ lower debug id echoed = .ok command := by
  let fields := DeviceState.applyEntries .empty changes.entries
  have hobject : (({} : DeviceState).apply text changes).1.object = .object fields.entries := rfl
  have hpayload : (({} : DeviceState).apply text changes).2 = text.toText (.object fields.entries) :=
    rfl
  rw [hobject] at hread
  have hnodup : (fields.entries.map Prod.fst).Nodup := fields.sorted.imp ne_of_lt
  have hget : ∀ id, (fields.entries.foldl
      (fun changes e => changes.set ⟨e.1⟩ (fromJson e.2)) StateChanges.new).get id =
        (changes.get id).map (normalOf id.name) := by
    intro id
    have hfields : fields.get id.name = (changes.get id).map (rendered id.name) := by
      rw [StateStore.get_applyEntries changes.distinct,Ordered.get_empty,Option.or_none,
        StateChanges.get,Option.map_map]
      rfl
    refine (get_parsed hnodup id.name).trans ?_
    refine (congrArg (Option.map fromJson) hfields).trans ?_
    cases hvalue : changes.entries.find? fun e => e.1 = id with
    | none => simp [StateChanges.get,hvalue]
    | some e =>
      have hsort := hsorted e (List.mem_of_find?_eq_some hvalue)
      simp [StateChanges.get,hvalue,fromJson_rendered id.name hsort]
  refine ⟨_,?_,hget,?_⟩
  · rw [hpayload,parseState,json,hread]
    rfl
  · intro debug id value command hvalue hlower
    exact ⟨normalOf id.name value,by rw [hget,hvalue]; rfl,lower_normalOf hlower⟩

/-- A lamp that is on, at a level halved from a raw one. -/
def lamp : StateChanges :=
  (StateChanges.new.set ⟨"state"⟩ (.bool true)).set ⟨"brightness"⟩ (.float (floatOfInt 200 /
    floatOfInt 2))

/-- How its two fields are written and read. -/
def lampText : JsonText where
  fromSlice _ := .ok (.object [("brightness",.number (.posInt 100)),("state",.string "ON")])
  toText _ := "\x7b\"brightness\":100,\"state\":\"ON\"\x7d"

/-- The lamp's word is read as a word, and still says on. -/
theorem lamp_echo : ∃ parsed,
    parseState lampText "\x7b\"brightness\":100,\"state\":\"ON\"\x7d".toUTF8.toList = .ok parsed ∧
      parsed.get ⟨"state"⟩ = some (.str "ON") ∧
      lower ⟨fun _ => "",fun _ => ""⟩ ⟨"state"⟩ (.str "ON") = .ok (.setOn true) := by
  have hsorted : ∀ e ∈ lamp.entries, e.2.Sorted := by
    intro e he
    rcases List.mem_cons.mp he with rfl | he
    · trivial
    · obtain rfl := List.mem_singleton.mp he
      trivial
  have hread : lampText.fromSlice
      (lampText.toText (({} : DeviceState).apply lampText lamp).1.object).toUTF8.toList =
        .ok (({} : DeviceState).apply lampText lamp).1.object := rfl
  obtain ⟨parsed,hparsed,hget,hlower⟩ := published_echo hsorted hread
  obtain ⟨echoed,hechoed,hcommand⟩ := hlower ⟨fun _ => "",fun _ => ""⟩ ⟨"state"⟩ (.bool true)
    (.setOn true) rfl rfl
  have hword : parsed.get ⟨"state"⟩ = some (.str "ON") := hget ⟨"state"⟩
  obtain rfl : StateValue.str "ON" = echoed := Option.some.inj (hword.symm.trans hechoed)
  exact ⟨parsed,hparsed,hword,hcommand⟩

end Echoed
end Rszigbee
