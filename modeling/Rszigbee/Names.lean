import Rszigbee.Encode
import Rszigbee.Texts

/-! Names of stored files: addresses in their canonical form, paths of two parts, and what a
name is taken apart into at its last dot. -/
namespace Rszigbee

namespace Ieee

inductive ParseError
  | length (found : ℕ)
  | notHex
  deriving DecidableEq

/-- `Display`. -/
def «show» (ieee : Ieee) : String := "0x" ++ hex 16 ieee.raw.toNat

/-- Sixteen digits, after a prefix or none; the length is in bytes. -/
def parse (s : String) : Except ParseError Ieee :=
  let body := match s.toList with
    | '0' :: 'x' :: rest | '0' :: 'X' :: rest => rest
    | cs => cs
  let length := (body.map Char.utf8Size).sum
  if length ≠ 16 then .error (.length length)
  else match Texts.fromStrRadix 16 (2 ^ 64) body with
    | some raw => .ok ⟨.ofNat raw⟩
    | none => .error .notHex

theorem toList_show (ieee : Ieee) :
    ieee.show.toList = '0' :: 'x' :: Texts.padded 16 16 ieee.raw.toNat := by
  simp [«show»,hex,Texts.padded]

theorem show_inj {a b : Ieee} : a.show = b.show ↔ a = b := by
  constructor
  · intro h
    have hdigits := congrArg String.toList h
    simp only [toList_show,List.cons.injEq,true_and] at hdigits
    rw [Texts.padded_inj (by decide) (by decide),UInt64.toNat_inj] at hdigits
    cases a
    cases b
    exact congrArg mk hdigits
  · rintro rfl
    rfl

/-- What is no hexadecimal digit, nor the prefix, is not in an address. -/
theorem not_mem_show {c : Char} (hc : Texts.digitValue 16 c = none) (hx : c ≠ 'x')
    (ieee : Ieee) : c ∉ ieee.show.toList := by
  have hzero : c ≠ '0' := by
    rintro rfl
    simp [Texts.digitValue] at hc
  have hdigits := Texts.not_mem_padded (by decide) (by decide) 16 ieee.raw.toNat hc
  simp [toList_show,hzero,hx,hdigits]

theorem parse_show (ieee : Ieee) : parse ieee.show = .ok ieee := by
  have hlt : ieee.raw.toNat < 16 ^ 16 := ieee.raw.toNat_lt
  have hlength : (Texts.padded 16 16 ieee.raw.toNat).length = 16 :=
    Texts.length_padded (by decide) (by decide) hlt
  have hsize : ((Texts.padded 16 16 ieee.raw.toNat).map Char.utf8Size).sum = 16 := by
    rw [Texts.size_padded (by decide) (by decide),hlength]
  have hread : Texts.fromStrRadix 16 (2 ^ 64) (Texts.padded 16 16 ieee.raw.toNat) =
      some ieee.raw.toNat :=
    Texts.fromStrRadix_padded (by decide) (by decide) 16 ieee.raw.toNat_lt
  simp only [parse,toList_show,hsize,hread]
  simp

end Ieee
namespace File

/-- Where the store keeps its files: its root, and the three directories there. -/
inductive Dir
  | root | devices | groups | backups
  deriving DecidableEq

structure Path where
  dir : Dir
  name : String
  deriving DecidableEq

namespace Path

/-- `rsplit_file_at_dot`: the stem and the extension; a name that only starts with a dot has
none. -/
def splitName (name : String) : String × Option String :=
  if name = ".." then (name,none)
  else match Texts.splitLast '.' name.toList with
    | none | some ([],_) => (name,none)
    | some (stem,ext) => (.ofList stem,some (.ofList ext))

def fileStem (p : Path) : String := (splitName p.name).1

def extension (p : Path) : Option String := (splitName p.name).2

def withExtension (p : Path) (ext : String) : Path := ⟨p.dir,p.fileStem ++ "." ++ ext⟩

theorem splitName_dotted {stem ext : String} (hstem : stem ≠ "") (hext : '.' ∉ ext.toList)
    (hne : ext ≠ "") : splitName (stem ++ "." ++ ext) = (stem,some ext) := by
  have hlist : (stem ++ "." ++ ext).toList = stem.toList ++ '.'::ext.toList := by simp
  have hdots : stem ++ "." ++ ext ≠ ".." := by
    intro h
    have hparts : stem.toList ++ '.'::ext.toList = ['.'] ++ '.'::[] := by
      rw [← hlist,h]
      rfl
    have hsplit := Texts.splitLast_append stem.toList hext
    rw [hparts,Texts.splitLast_append ['.'] (by simp)] at hsplit
    simp only [Option.some.injEq,Prod.mk.injEq] at hsplit
    exact hne (String.toList_eq_nil_iff.mp hsplit.2.symm)
  rw [splitName,if_neg hdots,hlist,Texts.splitLast_append stem.toList hext]
  cases hchars : stem.toList with
  | nil => exact absurd (String.toList_eq_nil_iff.mp hchars) hstem
  | cons c cs => simp [← hchars]

theorem fileStem_ne_empty {p : Path} (h : p.name ≠ "") : p.fileStem ≠ "" := by
  rw [fileStem,splitName]
  split
  · exact h
  · split
    · exact h
    · exact h
    · rename_i stem _ hstem _
      intro hempty
      have hchars := congrArg String.toList hempty
      rw [String.toList_ofList] at hchars
      exact hstem hchars

theorem extension_withExtension {p : Path} (h : p.name ≠ "") {ext : String}
    (hext : '.' ∉ ext.toList) (hne : ext ≠ "") : (p.withExtension ext).extension = some ext := by
  rw [extension,withExtension,splitName_dotted (fileStem_ne_empty h) hext hne]

/-- `dir.join(format!("{stem}.json"))`. -/
def json (dir : Dir) (stem : String) : Path := ⟨dir,stem ++ "." ++ "json"⟩

variable {dir : Dir} {stem : String}

theorem json_name_ne (dir : Dir) (stem : String) : (json dir stem).name ≠ "" := by
  simp [json]

theorem splitName_json (hstem : stem ≠ "") :
    splitName (json dir stem).name = (stem,some "json") :=
  splitName_dotted hstem (by decide) (by decide)

theorem extension_json (hstem : stem ≠ "") : (json dir stem).extension = some "json" := by
  rw [extension,splitName_json hstem]

theorem fileStem_json (hstem : stem ≠ "") : (json dir stem).fileStem = stem := by
  rw [fileStem,splitName_json hstem]

theorem json_inj {dir' : Dir} {stem' : String} :
    json dir stem = json dir' stem' ↔ dir = dir' ∧ stem = stem' := by
  simp [json]

/-- A file that is being written, not yet under its name. -/
def Temporary (p : Path) : Prop := p.extension = some "tmp"

instance (p : Path) : Decidable p.Temporary := inferInstanceAs (Decidable (_ = _))

theorem temporary_withExtension {p : Path} (h : p.name ≠ "") :
    (p.withExtension "tmp").Temporary :=
  extension_withExtension h (by decide) (by decide)

theorem not_temporary_json (hstem : stem ≠ "") : ¬(json dir stem).Temporary := by
  rw [Temporary,extension_json hstem]
  decide

end Path

def schemaPath : Path := ⟨.root,"schema"⟩

def networkPath : Path := .json .root "network"

/-- The canonical form of the address. -/
def devicePath (ieee : Ieee) : Path := .json .devices ieee.show

def groupPath (id : GroupId) : Path := .json .groups (toString id.raw.toNat)

theorem show_ne_empty (ieee : Ieee) : ieee.show ≠ "" := by
  simp [Ieee.show]

theorem group_ne_empty (id : GroupId) : toString id.raw.toNat ≠ "" := Nat.repr_ne_empty

theorem devicePath_inj {a b : Ieee} : devicePath a = devicePath b ↔ a = b := by
  simp [devicePath,Path.json_inj,Ieee.show_inj]

theorem groupPath_inj {a b : GroupId} : groupPath a = groupPath b ↔ a = b := by
  have hinj : toString a.raw.toNat = toString b.raw.toNat ↔ a = b := by
    constructor
    · intro h
      have hdigits : Nat.toDigits 10 a.raw.toNat = Nat.toDigits 10 b.raw.toNat := by
        simpa using congrArg String.toList h
      have hnat := congrArg (fun ds => Nat.ofDigitChars 10 ds 0) hdigits
      simp only [Nat.ofDigitChars_ten_toDigits,UInt16.toNat_inj] at hnat
      cases a
      cases b
      exact congrArg GroupId.mk hnat
    · rintro rfl
      rfl
  rw [groupPath,groupPath,Path.json_inj,hinj]
  simp

end File
end Rszigbee
