import Rszigbee.Keeping

/-! Backups over any sequence of saves. An identifier is the only record of what was saved, and
is taken apart at hyphens. -/
namespace Rszigbee.File

open Files

/-- One call of `save_backup`, with the clock it reads. -/
structure Save where
  millis : UInt64
  adapter : NamePart
  coordinator : Ieee
  bytes : Bytes

/-- Calls with their stamps, from a value of the process's counter on; it wraps. -/
def stamped (n : UInt64) : List Save → List (Stamp × Save)
  | [] => []
  | c::cs => (⟨c.millis,n⟩,c)::stamped (n + 1) cs

def saveBackups (files : Content) :
    List (Stamp × Save) → List (Except StoreError String) × Content
  | [] => ([],files)
  | (stamp,c)::rest =>
    let saved := saveBackup stamp c.adapter c.coordinator c.bytes
    let others := saveBackups (run files saved.2) rest
    (saved.1::others.1,others.2)

/-- Every save has its own identifier, loads as it was saved, and is listed under its adapter
and coordinator; and nothing else is listed. -/
def Kept (files : Content) (n : UInt64) (calls : List Save) : Prop :=
  let saved := saveBackups files (stamped n calls)
  ∃ ids : List String, saved.1 = ids.map .ok ∧ ids.Nodup ∧
    (∀ e ∈ ids.zip calls, loadBackup saved.2 e.1 = .ok e.2.bytes) ∧
    ((listBackups saved.2).map fun m => (m.id,m.adapter,m.coordinatorIeee)).Perm
      ((ids.zip calls).map fun e => (e.1,e.2.adapter.text,e.2.coordinator))

/-- An adapter name that its identifiers are read back from, and accepted with. -/
def NamePart.Plain (adapter : NamePart) : Prop :=
  '-' ∉ adapter.text.toList ∧ '\\' ∉ adapter.text.toList ∧ ¬['.','.'] <:+: adapter.text.toList

section Identifiers

theorem rsplitOnce_append {sep : Char} {s : String} {before after : List Char}
    (hs : s.toList = before ++ sep::after) (hafter : sep ∉ after) :
    rsplitOnce sep s = some (.ofList before,.ofList after) := by
  rw [rsplitOnce,hs,Texts.splitLast_append before hafter]
  rfl

theorem digitValue_hyphen {radix : ℕ} : Texts.digitValue radix '-' = none := by
  simp [Texts.digitValue]

theorem hyphen_not_mem_padded (width n : ℕ) : '-' ∉ Texts.padded 10 width n :=
  Texts.not_mem_padded (by decide) (by decide) width n digitValue_hyphen

theorem hyphen_not_mem_show (ieee : Ieee) : '-' ∉ ieee.show.toList :=
  Ieee.not_mem_show digitValue_hyphen (by decide) ieee

theorem toList_timestamp (stamp : Stamp) : (timestamp stamp).toList =
    Texts.padded 10 13 stamp.millis.toNat ++ '-'::Texts.padded 10 4 stamp.n.toNat := by
  rw [timestamp,String.toList_ofList]

theorem toList_backupId (stamp : Stamp) (adapter : NamePart) (coordinator : Ieee) :
    (backupId stamp adapter coordinator).toList =
      ((timestamp stamp).toList ++ '-'::adapter.text.toList) ++ '-'::coordinator.show.toList := by
  simp [backupId]

theorem timestamp_inj {s s' : Stamp} : timestamp s = timestamp s' ↔ s = s' := by
  constructor
  · intro h
    have hsplit := Texts.splitLast_append (Texts.padded 10 13 s.millis.toNat)
      (hyphen_not_mem_padded 4 s.n.toNat)
    rw [← toList_timestamp,h,toList_timestamp,
      Texts.splitLast_append _ (hyphen_not_mem_padded 4 s'.n.toNat)] at hsplit
    simp only [Option.some.injEq,Prod.mk.injEq] at hsplit
    obtain ⟨hmillis,hn⟩ := hsplit
    rw [Texts.padded_inj (by decide) (by decide),UInt64.toNat_inj] at hmillis hn
    cases s
    cases s'
    exact congrArg₂ Stamp.mk hmillis.symm hn.symm
  · rintro rfl
    rfl

/-- Identifiers tell apart what they are made of. -/
theorem backupId_inj {s s' : Stamp} {a a' : NamePart} {c c' : Ieee}
    (ha : '-' ∉ a.text.toList) (ha' : '-' ∉ a'.text.toList)
    (h : backupId s a c = backupId s' a' c') : s = s' ∧ a.text = a'.text ∧ c = c' := by
  have hlist := congrArg String.toList h
  rw [toList_backupId,toList_backupId] at hlist
  have hsplit := Texts.splitLast_append ((timestamp s).toList ++ '-'::a.text.toList)
    (hyphen_not_mem_show c)
  rw [hlist,Texts.splitLast_append _ (hyphen_not_mem_show c')] at hsplit
  simp only [Option.some.injEq,Prod.mk.injEq] at hsplit
  obtain ⟨hhead,hshow⟩ := hsplit
  have hsplit := Texts.splitLast_append (timestamp s).toList ha
  rw [← hhead,Texts.splitLast_append _ ha'] at hsplit
  simp only [Option.some.injEq,Prod.mk.injEq] at hsplit
  obtain ⟨hstamp,hadapter⟩ := hsplit
  exact ⟨timestamp_inj.mp (String.toList_inj.mp hstamp.symm),String.toList_inj.mp hadapter.symm,
    Ieee.show_inj.mp (String.toList_inj.mp hshow.symm)⟩

/-- A name without hyphens is read back. -/
theorem parseBackupId_backupId (stamp : Stamp) {adapter : NamePart} (coordinator : Ieee)
    (h : '-' ∉ adapter.text.toList) :
    parseBackupId (backupId stamp adapter coordinator) =
      some ⟨backupId stamp adapter coordinator,stamp.millis,adapter.text,coordinator⟩ := by
  have hid := rsplitOnce_append (toList_backupId stamp adapter coordinator)
    (hyphen_not_mem_show coordinator)
  have hhead : rsplitOnce '-' (.ofList ((timestamp stamp).toList ++ '-'::adapter.text.toList)) =
      some (timestamp stamp,adapter.text) := by
    rw [rsplitOnce_append String.toList_ofList h,String.ofList_toList,String.ofList_toList]
  have hstamp := rsplitOnce_append (toList_timestamp stamp) (hyphen_not_mem_padded 4 _)
  have hmillis : Texts.fromStrRadix 10 (2 ^ 64) (Texts.padded 10 13 stamp.millis.toNat) =
      some stamp.millis.toNat :=
    Texts.fromStrRadix_padded (by decide) (by decide) 13 stamp.millis.toNat_lt
  rw [String.ofList_toList] at hid
  simp only [parseBackupId,hid,Option.bind_eq_bind,Option.bind_some,Ieee.parse_show,
    Except.toOption,hhead,hstamp,String.toList_ofList,hmillis,UInt64.ofNat_toNat]

/-- A name with a hyphen is not: what should be the clock's reading has one in it. -/
theorem parseBackupId_hyphen (stamp : Stamp) {adapter : NamePart} (coordinator : Ieee)
    (h : '-' ∈ adapter.text.toList) :
    parseBackupId (backupId stamp adapter coordinator) = none := by
  obtain ⟨before,after,hadapter,hafter⟩ := Texts.exists_last h
  have hid := rsplitOnce_append (toList_backupId stamp adapter coordinator)
    (hyphen_not_mem_show coordinator)
  have hhead : rsplitOnce '-' (.ofList ((timestamp stamp).toList ++ '-'::adapter.text.toList)) =
      some (.ofList ((timestamp stamp).toList ++ '-'::before),.ofList after) := by
    apply rsplitOnce_append _ hafter
    simp [hadapter]
  -- the timestamp has a hyphen of its own, so the last one leaves one in front
  obtain ⟨millis,rest,hsplit,hrest⟩ : ∃ millis rest, (timestamp stamp).toList ++ '-'::before =
      millis ++ '-'::rest ∧ '-' ∉ rest ∧ '-' ∈ millis := by
    by_cases hbefore : '-' ∈ before
    · obtain ⟨b,a,rfl,ha⟩ := Texts.exists_last hbefore
      exact ⟨(timestamp stamp).toList ++ '-'::b,a,by simp,ha,by simp⟩
    · exact ⟨(timestamp stamp).toList,before,rfl,hbefore,by simp [toList_timestamp]⟩
  have hstamp : rsplitOnce '-' (.ofList ((timestamp stamp).toList ++ '-'::before)) =
      some (.ofList millis,.ofList rest) := by
    apply rsplitOnce_append _ hrest.1
    rw [String.toList_ofList,hsplit]
  have hmillis : Texts.fromStrRadix 10 (2 ^ 64) millis = none :=
    Texts.fromStrRadix_eq_none digitValue_hyphen (by decide) hrest.2
  rw [String.ofList_toList] at hid
  simp only [parseBackupId,hid,Option.bind_eq_bind,Option.bind_some,Ieee.parse_show,
    Except.toOption,hhead,hstamp,String.toList_ofList,hmillis,Option.bind_none]

end Identifiers
section Accepted

theorem mem_backupId {c : Char} (hten : Texts.digitValue 10 c = none)
    (hsixteen : Texts.digitValue 16 c = none) (hx : c ≠ 'x') (hhyphen : c ≠ '-') (stamp : Stamp)
    (adapter : NamePart) (coordinator : Ieee) :
    c ∈ (backupId stamp adapter coordinator).toList ↔ c ∈ adapter.text.toList := by
  have hmillis := Texts.not_mem_padded (by decide) (by decide) 13 stamp.millis.toNat hten
  have hn := Texts.not_mem_padded (by decide) (by decide) 4 stamp.n.toNat hten
  have hshow := Ieee.not_mem_show hsixteen hx coordinator
  simp [toList_backupId,toList_timestamp,hmillis,hn,hshow,hhyphen]

theorem dots_backupId (stamp : Stamp) (adapter : NamePart) (coordinator : Ieee) :
    ['.','.'] <:+: (backupId stamp adapter coordinator).toList ↔
      ['.','.'] <:+: adapter.text.toList := by
  have hten : Texts.digitValue 10 '.' = none := by simp [Texts.digitValue]
  have hsixteen : Texts.digitValue 16 '.' = none := by simp [Texts.digitValue]
  have hmillis := Texts.not_mem_padded (by decide) (by decide) 13 stamp.millis.toNat hten
  have hn := Texts.not_mem_padded (by decide) (by decide) 4 stamp.n.toNat hten
  have hbefore : '.' ∉ (timestamp stamp).toList ++ ['-'] := by
    simp [toList_timestamp,hmillis,hn]
  have hafter : '.' ∉ '-'::coordinator.show.toList := by
    simp [Ieee.not_mem_show hsixteen (by decide) coordinator]
  rw [toList_backupId,Texts.pair_infix_append_right hafter,List.append_cons,
    Texts.pair_infix_append_left hbefore]

/-- An identifier is accepted when the adapter's name has neither what is refused. -/
theorem loadBackup_backupId (files : Content) (stamp : Stamp) (adapter : NamePart)
    (coordinator : Ieee) (bytes : Bytes) :
    loadBackup files (backupId stamp adapter coordinator) = .ok bytes ↔
      ('\\' ∉ adapter.text.toList ∧ ¬['.','.'] <:+: adapter.text.toList) ∧
        files.lookup (backupPath (backupId stamp adapter coordinator)) = some bytes := by
  have hslash := (mem_backupId (c := '/') (by simp [Texts.digitValue])
    (by simp [Texts.digitValue]) (by decide) (by decide) stamp adapter coordinator)
  have hback := (mem_backupId (c := '\\') (by simp [Texts.digitValue])
    (by simp [Texts.digitValue]) (by decide) (by decide) stamp adapter coordinator)
  have hrefused : ('/' ∈ (backupId stamp adapter coordinator).toList ∨
      '\\' ∈ (backupId stamp adapter coordinator).toList ∨
      ['.','.'] <:+: (backupId stamp adapter coordinator).toList) ↔
        ('\\' ∈ adapter.text.toList ∨ ['.','.'] <:+: adapter.text.toList) := by
    rw [hslash,hback,dots_backupId]
    simp [adapter.valid.1]
  by_cases h : '\\' ∈ adapter.text.toList ∨ ['.','.'] <:+: adapter.text.toList
  · rw [loadBackup,if_pos (hrefused.mpr h)]
    rw [← not_or]
    simp [h]
  · rw [loadBackup,if_neg (fun h' => h (hrefused.mp h'))]
    rw [← not_or]
    simp only [h,not_false_eq_true,true_and]
    cases files.lookup (backupPath (backupId stamp adapter coordinator)) <;> simp

end Accepted

section Saved
variable {files : Content}

def identifier (e : Stamp × Save) : String := backupId e.1 e.2.adapter e.2.coordinator

/-- The files after one save. -/
def afterSave (files : Content) (e : Stamp × Save) : Content :=
  run files (writeAtomic (backupPath (identifier e)) e.2.bytes)

theorem saveBackups_cons (files : Content) (e : Stamp × Save) (es : List (Stamp × Save)) :
    saveBackups files (e::es) = (.ok (identifier e)::(saveBackups (afterSave files e) es).1,
      (saveBackups (afterSave files e) es).2) := by
  cases e
  rfl

theorem saved_ids (files : Content) (es : List (Stamp × Save)) :
    (saveBackups files es).1 = (es.map identifier).map .ok := by
  induction es generalizing files with
  | nil => rfl
  | cons e es ih => rw [saveBackups_cons,ih,List.map_cons,List.map_cons]

theorem lookup_afterSave (e : Stamp × Save) {p : Path} (hrest : ¬p.Temporary) :
    (afterSave files e).lookup p =
      if p = backupPath (identifier e) then some e.2.bytes else files.lookup p :=
  updates_changing (Path.json_name_ne _ _) (some e.2.bytes) files p hrest

theorem identifier_ne_empty (e : Stamp × Save) : identifier e ≠ "" := by
  simp [identifier,backupId]

theorem backupPath_inj {a b : String} : backupPath a = backupPath b ↔ a = b := by
  simp [backupPath,Path.json_inj]

theorem backup_rests (e : Stamp × Save) : ¬(backupPath (identifier e)).Temporary :=
  Path.not_temporary_json (identifier_ne_empty e)

theorem lookup_saved_of_not_mem {es : List (Stamp × Save)} {p : Path} (hrest : ¬p.Temporary)
    (hp : ∀ e ∈ es, p ≠ backupPath (identifier e)) :
    (saveBackups files es).2.lookup p = files.lookup p := by
  induction es generalizing files with
  | nil => rfl
  | cons e es ih =>
    rw [saveBackups_cons,ih fun e' he' => hp e' (List.mem_cons_of_mem e he'),
      lookup_afterSave e hrest,if_neg (hp e List.mem_cons_self)]

/-- A save stays, unless its identifier is taken again. -/
theorem lookup_saved_of_mem {es : List (Stamp × Save)} (hnodup : (es.map identifier).Nodup)
    {e : Stamp × Save} (he : e ∈ es) :
    (saveBackups files es).2.lookup (backupPath (identifier e)) = some e.2.bytes := by
  induction es generalizing files with
  | nil => cases he
  | cons e' es ih =>
    rw [List.map_cons,List.nodup_cons] at hnodup
    rw [saveBackups_cons]
    rcases List.mem_cons.mp he with rfl | hmem
    · have hothers : ∀ e' ∈ es, backupPath (identifier e) ≠ backupPath (identifier e') := by
        intro e' he' heq
        exact hnodup.1 (List.mem_map.mpr ⟨e',he',(backupPath_inj.mp heq).symm⟩)
      rw [lookup_saved_of_not_mem (backup_rests e) hothers,
        lookup_afterSave e (backup_rests e),if_pos rfl]
    · exact ih hnodup.2 hmem

/-- There is nothing but what was there and what was saved. -/
theorem saved_only {es : List (Stamp × Save)} {p : Path} (hrest : ¬p.Temporary)
    (hp : (saveBackups files es).2.lookup p ≠ none) :
    files.lookup p ≠ none ∨ ∃ e ∈ es, p = backupPath (identifier e) := by
  by_cases hsaved : ∃ e ∈ es, p = backupPath (identifier e)
  · exact .inr hsaved
  · left
    have hothers : ∀ e ∈ es, p ≠ backupPath (identifier e) := fun e he h => hsaved ⟨e,he,h⟩
    rwa [lookup_saved_of_not_mem hrest hothers] at hp

theorem listing_saved {es : List (Stamp × Save)}
    (hfiles : ∀ p : Path, p.dir = .backups → files.lookup p = none)
    (hnodup : (es.map identifier).Nodup) :
    (listing (saveBackups files es).2 .backups).Perm
      (es.map fun e => backupPath (identifier e)) := by
  have hlisting : (listing (saveBackups files es).2 .backups).Nodup :=
    (AList.keys_nodup _).filter _
  have hpaths : (es.map fun e => backupPath (identifier e)).Nodup := by
    have hmap : (es.map fun e => backupPath (identifier e)) = (es.map identifier).map backupPath := by
      rw [List.map_map]
      rfl
    rw [hmap]
    exact hnodup.map fun a b h => backupPath_inj.mp h
  rw [List.perm_ext_iff_of_nodup hlisting hpaths]
  intro p
  rw [mem_listing,List.mem_map]
  constructor
  · rintro ⟨hlookup,hdir,hext⟩
    rcases saved_only (not_temporary_of_json hext) hlookup with hbefore | ⟨e,he,rfl⟩
    · exact absurd (hfiles p hdir) hbefore
    · exact ⟨e,he,rfl⟩
  · rintro ⟨e,he,rfl⟩
    exact ⟨by simp [lookup_saved_of_mem hnodup he],rfl,
      Path.extension_json (identifier_ne_empty e)⟩

/-- What a listing should say of a save. -/
def described (e : Stamp × Save) : BackupMeta :=
  ⟨identifier e,e.1.millis,e.2.adapter.text,e.2.coordinator⟩

theorem listBackups_saved {es : List (Stamp × Save)}
    (hfiles : ∀ p : Path, p.dir = .backups → files.lookup p = none)
    (hnodup : (es.map identifier).Nodup) (hhyphen : ∀ e ∈ es, '-' ∉ e.2.adapter.text.toList) :
    (listBackups (saveBackups files es).2).Perm (es.map described) := by
  have hread : ∀ e ∈ es, parseBackupId (backupPath (identifier e)).fileStem =
      some (described e) := by
    intro e he
    rw [backupPath,Path.fileStem_json (identifier_ne_empty e)]
    exact parseBackupId_backupId e.1 e.2.coordinator (hhyphen e he)
  have hnames : ((es.map fun e => backupPath (identifier e)).filterMap fun p =>
      parseBackupId p.fileStem) = es.map described := by
    rw [List.filterMap_map,← List.filterMap_eq_map]
    exact List.filterMap_congr hread
  have hfound := (listing_saved hfiles hnodup).filterMap fun p => parseBackupId p.fileStem
  rw [hnames] at hfound
  exact (List.mergeSort_perm ..).trans hfound

theorem parseBackupId_id {id : String} {m : BackupMeta} (h : parseBackupId id = some m) :
    m.id = id := by
  simp only [parseBackupId,Option.bind_eq_bind,Option.bind_eq_some_iff] at h
  obtain ⟨_,-,_,-,_,-,_,-,_,-,hm⟩ := h
  cases hm
  rfl

theorem parse_of_listed {files : Content} {m : BackupMeta} (h : m ∈ listBackups files) :
    parseBackupId m.id = some m := by
  have hmem := (List.mergeSort_perm ..).subset h
  obtain ⟨p,-,hp⟩ := List.mem_filterMap.mp hmem
  rw [parseBackupId_id hp]
  exact hp

theorem map_stamped (n : UInt64) (calls : List Save) :
    (stamped n calls).map Prod.snd = calls := by
  induction calls generalizing n with
  | nil => rfl
  | cons c cs ih => rw [stamped,List.map_cons,ih]

/-- Saves that are listed and load were made under plain names. -/
theorem plain_of_saved {es : List (Stamp × Save)}
    (hload : ∀ e ∈ es, loadBackup (saveBackups files es).2 (identifier e) = .ok e.2.bytes)
    (hlist : ∀ e ∈ es, ∃ m ∈ listBackups (saveBackups files es).2, m.id = identifier e) :
    ∀ e ∈ es, e.2.adapter.Plain := by
  intro e he
  have haccepted := ((loadBackup_backupId ..).mp (hload e he)).1
  refine ⟨?_,haccepted⟩
  intro hhyphen
  obtain ⟨m,hm,hid⟩ := hlist e he
  have hread := parse_of_listed hm
  rw [hid,identifier,parseBackupId_hyphen e.1 e.2.coordinator hhyphen] at hread
  cases hread

/-- What an identifier is made of. -/
def ingredients (e : Stamp × Save) : Stamp × String × Ieee :=
  (e.1,e.2.adapter.text,e.2.coordinator)

theorem nodup_ingredients {es : List (Stamp × Save)} (h : (es.map identifier).Nodup) :
    (es.map ingredients).Nodup := by
  have hmap : es.map identifier = (es.map ingredients).map fun i =>
      timestamp i.1 ++ "-" ++ i.2.1 ++ "-" ++ i.2.2.show := by
    rw [List.map_map]
    rfl
  rw [hmap] at h
  exact h.of_map _

theorem nodup_identifiers {es : List (Stamp × Save)} (hplain : ∀ e ∈ es, e.2.adapter.Plain)
    (h : (es.map ingredients).Nodup) : (es.map identifier).Nodup := by
  rw [List.Nodup,List.pairwise_map] at h ⊢
  apply h.imp_of_mem
  intro a b ha hb hne heq
  obtain ⟨hstamp,hadapter,hcoordinator⟩ := backupId_inj (hplain a ha).1 (hplain b hb).1 heq
  exact hne (Prod.ext hstamp (Prod.ext hadapter hcoordinator))

/-- Where no backups were, any saves are all kept if and only if every adapter's name is plain
and no two saves have all of stamp, name and coordinator in common. -/
theorem backups_kept_iff (hfiles : ∀ p : Path, p.dir = .backups → files.lookup p = none)
    (n : UInt64) (calls : List Save) : Kept files n calls ↔
      (∀ c ∈ calls, c.adapter.Plain) ∧ ((stamped n calls).map ingredients).Nodup := by
  have hcalls := map_stamped n calls
  rw [Kept]
  generalize stamped n calls = es at *
  subst hcalls
  have hzip : (es.map identifier).zip (es.map Prod.snd) = es.map fun e => (identifier e,e.2) :=
    List.zip_map'
  constructor
  · rintro ⟨ids,hids,hnodup,hload,hlist⟩
    rw [saved_ids] at hids
    have hids : es.map identifier = ids :=
      List.map_injective_iff.mpr (fun _ _ h => Except.ok.inj h) hids
    subst hids
    rw [hzip,List.map_map] at hlist
    rw [hzip,List.forall_mem_map] at hload
    have hlisted : ∀ e ∈ es, ∃ m ∈ listBackups (saveBackups files es).2, m.id = identifier e := by
      intro e he
      have hmem := hlist.symm.subset (List.mem_map_of_mem he)
      obtain ⟨m,hm,heq⟩ := List.mem_map.mp hmem
      exact ⟨m,hm,congrArg Prod.fst heq⟩
    exact ⟨List.forall_mem_map.mpr (plain_of_saved hload hlisted),nodup_ingredients hnodup⟩
  · rintro ⟨hplain,hdistinct⟩
    rw [List.forall_mem_map] at hplain
    have hnodup := nodup_identifiers hplain hdistinct
    refine ⟨es.map identifier,saved_ids files es,hnodup,?_,?_⟩
    · rw [hzip,List.forall_mem_map]
      intro e he
      exact (loadBackup_backupId ..).mpr ⟨(hplain e he).2,lookup_saved_of_mem hnodup he⟩
    · have hlist := listBackups_saved hfiles hnodup fun e he => (hplain e he).1
      have hmap := hlist.map fun m : BackupMeta => (m.id,m.adapter,m.coordinatorIeee)
      rw [List.map_map] at hmap
      rw [hzip,List.map_map]
      exact hmap

/-- One backup by an adapter. -/
def backupBy (adapter : NamePart) : Save := ⟨1756789523123,adapter,⟨0x94a081fffed96e5c⟩,[0x6f]⟩

theorem backups_kept_iff_ember : Kept ∅ 7 [backupBy ⟨"ember",by decide⟩] ↔
    (∀ c ∈ [backupBy ⟨"ember",by decide⟩], c.adapter.Plain) ∧
      ((stamped 7 [backupBy ⟨"ember",by decide⟩]).map ingredients).Nodup :=
  backups_kept_iff (fun _ _ => rfl) 7 [backupBy ⟨"ember",by decide⟩]

/-- A backup by an adapter with a hyphen in its name is not listed. -/
theorem hyphen_not_listed : ¬Kept ∅ 0 [backupBy ⟨"zigate-usb",by decide⟩] := by
  have hnone : listBackups
      (saveBackups ∅ (stamped 0 [backupBy ⟨"zigate-usb",by decide⟩])).2 = [] := by decide +kernel
  rintro ⟨ids,hids,-,-,hlist⟩
  rw [hnone,saved_ids] at *
  cases ids with
  | nil => cases hids
  | cons id ids => exact absurd hlist.length_eq (by simp)

end Saved
end Rszigbee.File
