import ClusterLedger.Proofs.Disk.Operations

/-!
# A folder of folders of files

In a folder that was empty there are only the folders of files that have been made there. They are a
finite map of finite maps, and what is done on the disk is done to that map.
-/
namespace ClusterLedger.Disk

open Entry (LeadsTo)

/-- The entries of a folder of files. -/
def fileEntries (files : Dict ByteArray) : List (String × Entry) :=
  (files.mapValues fun _ => Entry.file).toList

/-- The entries of a folder of such folders. -/
def folderEntries (folders : Dict (Dict ByteArray)) : List (String × Entry) :=
  (folders.mapValues fun _ files => Entry.folder (fileEntries files)).toList

/-- A way leads to a folder of folders of files. It did so before there was anything in the folder,
so that it does not lead through it. -/
structure Filled (way : List String) (folders : Dict (Dict ByteArray)) (disk : Entry) : Prop where
  leads : LeadsTo disk way (folderEntries folders)
  origin : ∃ base, LeadsTo base way [] ∧
    ∀ place, base.shape? place = .ok none → disk.shape? place = .ok none

/-- A request is answered, and the folder is another one then. -/
def Answers (way : List String) (r : Request) (folders : Dict (Dict ByteArray))
    (reply : Except Fault r.Yield) (folders' : Dict (Dict ByteArray)) : Prop :=
  ∀ disk, Filled way folders disk →
    (answer r disk).1 = reply ∧ Filled way folders' (answer r disk).2

/-- A name behind a way is neither too long nor too far away. -/
structure Admitted (way : List String) (name : String) : Prop where
  length : name.utf8ByteSize ≤ nameLimit
  check : Entry.check (way ++ [name]) = .ok ()

variable {disk : Entry} {way p q : List String} {n m t : String} {bytes : ByteArray}
  {folders folders' : Dict (Dict ByteArray)} {files files' : Dict ByteArray}
  {es es' : List (String × Entry)} {f : List (String × Entry) → List (String × Entry)}

theorem filled_empty (h : LeadsTo disk way []) : Filled way {} disk :=
  ⟨h, disk, h, fun _ => id⟩

/-! ## Entries -/

theorem get?_fileEntries (files : Dict ByteArray) (n : String) :
    Entries.get? n (fileEntries files) = (files.get? n).map Entry.file :=
  Dict.get?_mapValues _ files n

theorem get?_folderEntries (folders : Dict (Dict ByteArray)) (t : String) :
    Entries.get? t (folderEntries folders) =
      (folders.get? t).map fun files => Entry.folder (fileEntries files) :=
  Dict.get?_mapValues _ folders t

theorem insert_fileEntries (files : Dict ByteArray) (n : String) (bytes : ByteArray) :
    Entries.insert n (.file bytes) (fileEntries files) = fileEntries (files.insert n bytes) :=
  congrArg Dict.toList (Dict.mapValues_insert (fun _ => Entry.file) files n bytes).symm

theorem erase_fileEntries (files : Dict ByteArray) (n : String) :
    Entries.erase n (fileEntries files) = fileEntries (files.erase n) :=
  congrArg Dict.toList (Dict.mapValues_erase (fun _ => Entry.file) files n).symm

theorem insert_folderEntries (folders : Dict (Dict ByteArray)) (t : String)
    (files : Dict ByteArray) :
    Entries.insert t (.folder (fileEntries files)) (folderEntries folders) =
      folderEntries (folders.insert t files) :=
  congrArg Dict.toList
    (Dict.mapValues_insert (fun _ files => Entry.folder (fileEntries files)) folders t files).symm

theorem erase_folderEntries (folders : Dict (Dict ByteArray)) (t : String) :
    Entries.erase t (folderEntries folders) = folderEntries (folders.erase t) :=
  congrArg Dict.toList
    (Dict.mapValues_erase (fun _ files => Entry.folder (fileEntries files)) folders t).symm

theorem fileEntries_eq_nil : fileEntries files = [] ↔ files = {} :=
  List.map_eq_nil_iff.trans ⟨fun h => Dict.ext_toList h, fun h => h ▸ rfl⟩

/-! ## Changes of the folder -/

/-- A change of a folder in a folder is one of the outer folder. -/
theorem change_snoc (h : disk.at? p = .ok (.folder es))
    (ht : Entries.get? t es = some (.folder es')) :
    disk.change f (p ++ [t]) = disk.change (Entries.insert t (.folder (f es'))) p := by
  induction p generalizing disk with
  | nil =>
    cases h
    simp only [List.nil_append, Entry.change, ht]
  | cons m rest ih =>
    cases disk with
    | file b => cases h
    | folder entries =>
      rw [Entry.at?] at h
      simp only [List.cons_append, Entry.change]
      cases hget : Entries.get? m entries with
      | none =>
        rw [hget] at h
      | some e =>
        rw [hget] at h
        simp only [ih h]

/-- The folder has been filled otherwise. -/
theorem Filled.change (h : Filled way folders disk)
    (hf : f (folderEntries folders) = folderEntries folders') :
    Filled way folders' (disk.change f (placeOf way)) := by
  obtain ⟨base, hbase, hfolders⟩ := h.origin
  have hkept : ∀ place, base.shape? place = .ok none →
      (disk.change f (placeOf way)).shape? place = .ok none := by
    intro place hplace
    rw [Entry.shape?_change fun m rest he => ?_]
    · exact hfolders place hplace
    · rw [he, Entry.shape?, Entry.at?_append, hbase.folder] at hplace
      cases hplace
  refine ⟨⟨Entry.follow?_of_folders hkept hbase.follow, ?_⟩, base, hbase, hkept⟩
  rw [← hf]
  exact Entry.at?_change h.leads.folder

/-! ## Ways into the folder -/

/-- A folder that can be made in the folder, and a file that can be made there. -/
structure Usable (way : List String) (t n : String) : Prop where
  folder : Plain t
  file : Plain n
  admitsFolder : Admitted way t
  admitsFile : Admitted (way ++ [t]) n

theorem Filled.leadsTo (h : Filled way (folders.insert t files) disk) (ht : Plain t)
    (hadmitted : Admitted way t) : LeadsTo disk (way ++ [t]) (fileEntries files) := by
  refine ⟨?_, ?_⟩
  · rw [h.leads.follow?_snoc ht hadmitted.length, hadmitted.check, placeOf_of_plain ht]
    rfl
  · rw [placeOf_of_plain ht, Entry.at?_child h.leads.folder, get?_folderEntries, Dict.get?_insert,
      if_pos rfl]
    rfl

theorem Filled.file? (h : Filled way folders disk) (ht : Plain t) (n : String) :
    disk.file? (Location.place ⟨way ++ [t], n⟩) =
      (folders.get? t).bind fun files => files.get? n := by
  rw [Location.place, placeOf_of_plain ht, List.append_assoc, Entry.file?, Entry.at?_append,
    h.leads.folder]
  simp only [Except.bind, List.cons_append, List.nil_append, Entry.at?, get?_folderEntries]
  cases folders.get? t with
  | none => rfl
  | some files =>
    simp only [Option.map_some, Entry.at?, get?_fileEntries]
    cases hget : files.get? n with
    | none => simp [hget, Except.toOption]
    | some bytes => simp [hget, Except.toOption, Entry.bytes?]

/-- What stands in a folder: a file, or nothing. -/
theorem Filled.look? (h : Filled way (folders.insert t files) disk) (hn : Usable way t n) :
    disk.look? ⟨way ++ [t], n⟩ = .ok ((files.get? n).map .file) := by
  rw [(h.leadsTo hn.folder hn.admitsFolder).look? hn.file hn.admitsFile.length,
    hn.admitsFile.check, get?_fileEntries]
  rfl

/-- What stands in a folder that is not there. -/
theorem Filled.look?_missing (h : Filled way folders disk) (ht : folders.get? t = none)
    (hn : Usable way t n) : disk.look? ⟨way ++ [t], n⟩ = .error .missing := by
  have hat : disk.at? (placeOf way ++ [t]) = .error .missing := by
    rw [Entry.at?_child h.leads.folder, get?_folderEntries, ht]
    rfl
  have hway : (way ++ [t]).foldlM disk.step? [] = .ok (placeOf way ++ [t]) := by
    rw [← Entry.follow?_of_check hn.admitsFolder.check,
      h.leads.follow?_snoc hn.folder hn.admitsFolder.length, hn.admitsFolder.check]
    rfl
  have hfollow : disk.follow? (way ++ [t] ++ [n]) = .error .missing := by
    rw [Entry.follow?_of_check hn.admitsFile.check, List.foldlM_append, hway]
    change [n].foldlM disk.step? (placeOf way ++ [t]) = _
    rw [List.foldlM_cons, Entry.step?, hat]
    rfl
  rw [Entry.look?, Location.way, hfollow]

/-- The files of a folder have been changed. -/
theorem Filled.changeAt (h : Filled way (folders.insert t files) disk) (hn : Usable way t n)
    (hf : f (fileEntries files) = fileEntries files') :
    Filled way (folders.insert t files') (disk.changeAt (way ++ [t]) f) := by
  have hget : Entries.get? t (folderEntries (folders.insert t files)) =
      some (.folder (fileEntries files)) := by
    rw [get?_folderEntries, Dict.get?_insert, if_pos rfl]
    rfl
  rw [Entry.changeAt, (h.leadsTo hn.folder hn.admitsFolder).follow, placeOf_of_plain hn.folder]
  simp only [change_snoc h.leads.folder hget, hf]
  refine h.change ?_
  rw [insert_folderEntries, Dict.insert_insert]

theorem Filled.put (h : Filled way (folders.insert t files) disk) (hn : Usable way t n)
    (bytes : ByteArray) :
    Filled way (folders.insert t (files.insert n bytes)) (disk.put ⟨way ++ [t], n⟩ (.file bytes)) :=
  h.changeAt hn (insert_fileEntries files n bytes)

theorem Filled.take (h : Filled way (folders.insert t files) disk) (hn : Usable way t n) :
    Filled way (folders.insert t (files.erase n)) (disk.take ⟨way ++ [t], n⟩) :=
  h.changeAt hn (erase_fileEntries files n)

/-! ## Answers about files -/

theorem answers_write (hn : Usable way t n) (bytes : ByteArray) :
    Answers way (.write ⟨way ++ [t], n⟩ bytes) (folders.insert t files) (.ok ())
      (folders.insert t (files.insert n bytes)) := by
  intro disk h
  rw [answer, write, h.look? hn]
  cases files.get? n <;> exact ⟨rfl, h.put hn bytes⟩

theorem answers_read (hn : Usable way t n) (hget : files.get? n = some bytes) :
    Answers way (.read ⟨way ++ [t], n⟩) (folders.insert t files) (.ok bytes)
      (folders.insert t files) := by
  intro disk h
  rw [answer, read, h.look? hn, hget]
  exact ⟨rfl, h⟩

theorem answers_read_missing (hn : Usable way t n)
    (hget : (folders.get? t).bind (·.get? n) = none) :
    Answers way (.read ⟨way ++ [t], n⟩) folders (.error .missing) folders := by
  intro disk h
  rw [answer, read]
  cases ht : folders.get? t with
  | none =>
    rw [h.look?_missing ht hn]
    exact ⟨rfl, h⟩
  | some files =>
    rw [ht] at hget
    rw [← Dict.insert_of_get? ht] at h ⊢
    rw [h.look? hn, show files.get? n = none from hget]
    exact ⟨rfl, h⟩

theorem answers_link (hm : Usable way t m) (hn : Usable way t n) (hget : files.get? m = some bytes)
    (hnone : files.get? n = none) :
    Answers way (.link ⟨way ++ [t], m⟩ ⟨way ++ [t], n⟩) (folders.insert t files) (.ok ())
      (folders.insert t (files.insert n bytes)) := by
  intro disk h
  rw [answer, link, h.look? hm, h.look? hn, hget, hnone]
  exact ⟨rfl, h.put hn bytes⟩

theorem answers_link_taken (hm : Usable way t m) (hn : Usable way t n)
    (hget : files.get? m = some bytes) (htaken : files.get? n ≠ none) :
    Answers way (.link ⟨way ++ [t], m⟩ ⟨way ++ [t], n⟩) (folders.insert t files)
      (.error .alreadyThere) (folders.insert t files) := by
  intro disk h
  obtain ⟨other, hother⟩ := Option.ne_none_iff_exists'.1 htaken
  rw [answer, link, h.look? hm, h.look? hn, hget, hother]
  exact ⟨rfl, h⟩

theorem answers_rename (hm : Usable way t m) (hn : Usable way t n) (hne : m ≠ n)
    (hget : files.get? m = some bytes) :
    Answers way (.rename ⟨way ++ [t], m⟩ ⟨way ++ [t], n⟩) (folders.insert t files) (.ok ())
      (folders.insert t ((files.erase m).insert n bytes)) := by
  intro disk h
  have hlook := h.look? hm
  rw [hget] at hlook
  have hfound : ∀ entries, (files.get? n).map Entry.file ≠ some (.folder entries) := by
    cases files.get? n <;> exact nofun
  rw [answer, rename_file hm.file hne hlook (h.look? hn) hfound]
  exact ⟨rfl, (h.take hm).put hn bytes⟩

theorem answers_rename_missing (hm : Usable way t m) (hn : Usable way t n)
    (hget : (folders.get? t).bind (·.get? m) = none) :
    Answers way (.rename ⟨way ++ [t], m⟩ ⟨way ++ [t], n⟩) folders (.error .missing) folders := by
  intro disk h
  rw [answer, rename]
  cases ht : folders.get? t with
  | none =>
    rw [h.look?_missing ht hm]
    exact ⟨rfl, h⟩
  | some files =>
    rw [ht] at hget
    rw [← Dict.insert_of_get? ht] at h ⊢
    rw [h.look? hm, h.look? hn, show files.get? m = none from hget]
    exact ⟨rfl, h⟩

theorem answers_copy (hm : Usable way t m) (hn : Usable way t n)
    (hget : files.get? m = some bytes) :
    Answers way (.copy ⟨way ++ [t], m⟩ ⟨way ++ [t], n⟩) (folders.insert t files) (.ok ())
      (folders.insert t (files.insert n bytes)) := by
  intro disk h
  rw [answer, copy, read, h.look? hm, hget]
  exact answers_write hn bytes disk h

theorem answers_removeFile (hn : Usable way t n) (hget : files.get? n = some bytes) :
    Answers way (.removeFile ⟨way ++ [t], n⟩) (folders.insert t files) (.ok ())
      (folders.insert t (files.erase n)) := by
  intro disk h
  rw [answer, removeFile, h.look? hn, hget]
  exact ⟨rfl, h.take hn⟩

theorem answers_removeFile_missing (hn : Usable way t n) (hget : files.get? n = none) :
    Answers way (.removeFile ⟨way ++ [t], n⟩) (folders.insert t files) (.error .missing)
      (folders.insert t files) := by
  intro disk h
  rw [answer, removeFile, h.look? hn, hget]
  exact ⟨rfl, h⟩

theorem answers_probe (hn : Usable way t n) :
    Answers way (.probe ⟨way ++ [t], n⟩) (folders.insert t files) (.ok (files.contains n))
      (folders.insert t files) := by
  intro disk h
  rw [answer, probe, h.look? hn]
  refine ⟨?_, h⟩
  rw [Dict.contains]
  cases files.get? n <;> rfl

/-! ## Answers about folders -/

theorem answers_names (way : List String) (folders : Dict (Dict ByteArray)) :
    Answers way (.names way) folders (.ok (folders.keys.map fun t => (t, true))) folders := by
  intro disk h
  have hentries : (folderEntries folders).map (fun e => (e.1, e.2.isFolder)) =
      (folders.mapValues fun _ _ => true).toList :=
    List.map_map
  have hkeys : (folders.mapValues fun _ _ => true).toList =
      folders.keys.map fun t => (t, true) := by
    rw [Dict.keys, List.map_map]
    rfl
  rw [answer, names, Entry.folderAt?, Entry.find?, h.leads.follow]
  simp only [h.leads.folder, Except.map, List.map_reverse, hentries, Dict.ofList_reverse_toList]
  exact ⟨congrArg Except.ok hkeys, h⟩

theorem Filled.look?_folder (h : Filled way (folders.insert t files) disk) (ht : Plain t)
    (hadmitted : Admitted way t) :
    disk.look? ⟨way, t⟩ = .ok (some (.folder (fileEntries files))) := by
  rw [h.leads.look? ht hadmitted.length, hadmitted.check, get?_folderEntries, Dict.get?_insert,
    if_pos rfl]
  rfl

theorem answers_removeFolder (ht : Plain t) (hadmitted : Admitted way t) :
    Answers way (.removeFolder ⟨way, t⟩) (folders.insert t {}) (.ok ()) (folders.erase t) := by
  intro disk h
  have htake : Filled way (folders.erase t) (disk.take ⟨way, t⟩) := by
    rw [Entry.take, Entry.changeAt, h.leads.follow]
    refine h.change ?_
    rw [erase_folderEntries, Dict.erase_insert_self]
  rw [answer, removeFolder, h.look?_folder ht hadmitted]
  exact ⟨rfl, htake⟩

theorem answers_removeFolder_notEmpty (ht : Plain t) (hadmitted : Admitted way t)
    (hfiles : files ≠ {}) :
    Answers way (.removeFolder ⟨way, t⟩) (folders.insert t files) (.error .notEmpty)
      (folders.insert t files) := by
  intro disk h
  rw [answer, removeFolder, h.look?_folder ht hadmitted]
  cases hentries : fileEntries files with
  | nil => exact absurd (fileEntries_eq_nil.1 hentries) hfiles
  | cons e es => exact ⟨rfl, h⟩

theorem answers_makeFolder (ht : Plain t) (hadmitted : Admitted way t) :
    Answers way (.makeFolder (way ++ [t])) folders (.ok ())
      (folders.insert t ((folders.get? t).getD {})) := by
  intro disk h
  cases hget : folders.get? t with
  | some files =>
    rw [← Dict.insert_of_get? hget] at h
    rw [answer, grow_of_leadsTo (h.leadsTo ht hadmitted)]
    exact ⟨rfl, h⟩
  | none =>
    have hstep : disk.step? (placeOf way) t = .ok (placeOf way ++ [t]) := by
      have hlength := hadmitted.length
      rw [Entry.step?, h.leads.folder]
      simp only
      rw [if_neg ht.not_up, if_neg ht.not_here, if_neg (by omega)]
    have hmissing : disk.at? (placeOf way ++ [t]) = .error .missing := by
      rw [Entry.at?_child h.leads.folder, get?_folderEntries, hget]
      rfl
    have hmade : Filled way (folders.insert t {})
        (disk.change (Entries.insert t (.folder [])) (placeOf way)) :=
      h.change (insert_folderEntries folders t {})
    have hat := (hmade.leadsTo ht hadmitted).folder
    rw [placeOf_of_plain ht] at hat
    have hgrow : disk.grow (way ++ [t]) =
        (.ok (), disk.change (Entries.insert t (.folder [])) (placeOf way)) := by
      rw [Entry.grow, hadmitted.check]
      simp only [growFrom_append [t] h.leads.foldlM h.leads.folder, Entry.growFrom, hstep,
        hmissing, hat]
    rw [answer, hgrow]
    exact ⟨rfl, hmade⟩

/-! ## What a disk refuses -/

/-- A way to a plain name behind a folder cannot be followed when the disk does not admit it. -/
theorem refused_cases (h : LeadsTo disk way es) (hn : Plain n) (hrefused : ¬Admitted way n) :
    (∃ fault, Entry.check (way ++ [n]) = .error fault) ∨
      Entry.check (way ++ [n]) = .ok () ∧ disk.step? (placeOf way) n = .error .nameTooLong := by
  cases hcheck : Entry.check (way ++ [n]) with
  | error fault => exact .inl ⟨fault, rfl⟩
  | ok u =>
    refine .inr ⟨rfl, h.step?_of_long hn (Nat.lt_of_not_le fun hlength => ?_)⟩
    exact hrefused ⟨hlength, hcheck⟩

theorem admitted_of_follow? {place : List String} (h : LeadsTo disk way es) (hn : Plain n)
    (hfollow : disk.follow? (way ++ [n]) = .ok place) : Admitted way n := by
  refine Classical.byContradiction fun hrefused => ?_
  rcases refused_cases h hn hrefused with ⟨fault, hcheck⟩ | ⟨hcheck, hstep⟩
  · rw [Entry.follow?, hcheck] at hfollow
    cases hfollow
  · rw [Entry.follow?_of_check hcheck, List.foldlM_append, h.foldlM] at hfollow
    change [n].foldlM disk.step? (placeOf way) = _ at hfollow
    rw [List.foldlM_cons, hstep] at hfollow
    cases hfollow

/-- A way on into the folder leads to the files of one of its folders. -/
theorem Filled.of_leadsTo (h : Filled way folders disk) (ht : Plain t)
    (hes : LeadsTo disk (way ++ [t]) es) :
    ∃ files, folders.get? t = some files ∧ es = fileEntries files ∧ Admitted way t := by
  obtain ⟨es', hleads, hget⟩ := hes.parent ht
  obtain rfl := h.leads.unique hleads
  rw [get?_folderEntries] at hget
  obtain ⟨files, hfiles, hentries⟩ := Option.map_eq_some_iff.1 hget
  exact ⟨files, hfiles, (Entry.folder.inj hentries).symm,
    admitted_of_follow? hleads ht hes.follow⟩

/-- What has been looked at in a folder of the folder is a file of it, or nothing. -/
theorem Filled.of_look? (h : Filled way folders disk) (ht : Plain t) (hn : Plain n)
    {x : Option Entry} (hlook : disk.look? ⟨way ++ [t], n⟩ = .ok x) :
    ∃ files, folders.get? t = some files ∧ x = (files.get? n).map .file ∧ Usable way t n := by
  obtain ⟨hfollow, es, hes, rfl⟩ := Entry.look?_eq_ok hn hlook
  obtain ⟨files, hfiles, rfl, hadmitted⟩ := h.of_leadsTo ht hes
  exact ⟨files, hfiles, get?_fileEntries files n, ht, hn, hadmitted,
    admitted_of_follow? hes hn hfollow⟩

/-- Below a folder of the folder there is no other one. -/
theorem Filled.not_leadsTo (h : Filled way folders disk) (ht : Plain t) (hn : Plain n)
    (es : List (String × Entry)) : ¬LeadsTo disk (way ++ [t] ++ [n]) es := by
  intro hes
  obtain ⟨es', hleads, hget⟩ := hes.parent hn
  obtain ⟨files, -, rfl, -⟩ := h.of_leadsTo ht hleads
  rw [get?_fileEntries] at hget
  obtain ⟨bytes, -, hfile⟩ := Option.map_eq_some_iff.1 hget
  cases hfile

theorem answers_write_refused {fault : Fault}
    (hcheck : Entry.check (way ++ [n]) = .error fault) (bytes : ByteArray) :
    Answers p (.write ⟨way, n⟩ bytes) folders (.error fault) folders := by
  intro disk h
  rw [answer, write, Entry.look?, Location.way, Entry.follow?, hcheck]
  exact ⟨rfl, h⟩

/-- A folder that the disk does not admit is not made. -/
theorem grow_of_refused (h : LeadsTo disk way es) (hn : Plain n) (hrefused : ¬Admitted way n) :
    ∃ fault, disk.grow (way ++ [n]) = (.error fault, disk) := by
  rcases refused_cases h hn hrefused with ⟨fault, hcheck⟩ | ⟨hcheck, hstep⟩
  · exact ⟨fault, by rw [Entry.grow, hcheck]⟩
  · refine ⟨.nameTooLong, ?_⟩
    rw [Entry.grow, hcheck]
    simp only [growFrom_append [n] h.foldlM h.folder, Entry.growFrom, hstep]

end ClusterLedger.Disk
