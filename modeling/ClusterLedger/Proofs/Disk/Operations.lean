import ClusterLedger.Proofs.Disk.Places

/-!
# What the operations change

An operation on files changes nothing but the files that it names, whatever folders they are in, and
a folder is made without a change of any file.
-/
namespace ClusterLedger.Disk

open Entry (SameFolders LeadsTo NoFolder)

/-- The way of a location can be followed. -/
def Entry.Reaches (root : Entry) (l : Location) : Prop :=
  root.follow? l.way = .ok l.place

/-- At most the files at some locations are not as they were, and no folder is another one. -/
structure Touches (files : List Location) (root root' : Entry) : Prop where
  folders : SameFolders root root'
  others : ∀ place, (∀ l ∈ files, place ≠ l.place) → root'.file? place = root.file? place

variable {root root' root'' : Entry} {way : List String} {files files' : List Location}
  {l existing new : Location} {n source target : String} {es : List (String × Entry)}
  {bytes : ByteArray}

theorem Touches.refl (files : List Location) (root : Entry) : Touches files root root :=
  ⟨SameFolders.refl root, fun _ _ => rfl⟩

theorem Touches.trans (h : Touches files root root') (h' : Touches files root' root'') :
    Touches files root root'' :=
  ⟨h.folders.trans h'.folders, fun p hp => (h'.others p hp).trans (h.others p hp)⟩

theorem Touches.mono (h : Touches files root root') (hfiles : files ⊆ files') :
    Touches files' root root' :=
  ⟨h.folders, fun p hp => h.others p fun l hl => hp l (hfiles hl)⟩

/-- Whatever folder a file of another name is in, it is not touched. -/
theorem Touches.file? (h : Touches files root root') (hn : ∀ f ∈ files, f.name ≠ l.name) :
    root'.file? l.place = root.file? l.place :=
  h.others _ fun f hf he => hn f hf (name_of_place he).symm

theorem Entry.Reaches.of_sameFolders (h : root.Reaches l) (hsame : SameFolders root root') :
    root'.Reaches l :=
  Entry.follow?_of_sameFolders hsame h

/-- What is read of a file is told by the folders and the bytes at its place. -/
theorem read_congr {es' : List (String × Entry)} (h : LeadsTo root way es)
    (h' : LeadsTo root' way es') (hn : Plain n) (hlimit : n.utf8ByteSize ≤ nameLimit)
    (hfolders : SameFolders root root')
    (hfile : root'.file? (Location.place ⟨way, n⟩) = root.file? (Location.place ⟨way, n⟩)) :
    read root' ⟨way, n⟩ = read root ⟨way, n⟩ := by
  have hfolder := hfolders (Location.place ⟨way, n⟩)
  rw [Location.place, Entry.shape?_child h.folder, Entry.shape?_child h'.folder] at hfolder
  rw [Location.place, Entry.file?_child h.folder, Entry.file?_child h'.folder] at hfile
  rw [read, read, h.look? hn hlimit, h'.look? hn hlimit]
  cases Entry.check (way ++ [n]) with
  | error f => rfl
  | ok u =>
    simp only [Except.map]
    generalize Entries.get? n es = x at hfile hfolder ⊢
    generalize Entries.get? n es' = x' at hfile hfolder ⊢
    rcases x with _ | ⟨b | entries⟩ <;> rcases x' with _ | ⟨b' | entries'⟩ <;>
      simp_all [Entry.bytes?]

/-! ## Files -/

theorem noFolder_of_none (h : Entries.get? n es = none) : NoFolder n es := by
  intro e he
  rw [h] at he
  cases he

theorem noFolder_of_file (h : Entries.get? n es = some (.file bytes)) : NoFolder n es := by
  intro e he
  rw [h] at he
  exact ⟨bytes, (Option.some.inj he).symm⟩

theorem noFolder_of_ne (h : ∀ entries, Entries.get? n es ≠ some (.folder entries)) :
    NoFolder n es := by
  intro e he
  cases e with
  | file b => exact ⟨b, rfl⟩
  | folder entries => exact absurd he (h entries)

theorem noFolder_insert (n : String) (bytes : ByteArray) (es : List (String × Entry)) :
    NoFolder n (Entries.insert n (.file bytes) es) :=
  noFolder_of_file (by rw [Entries.get?_insert, if_pos rfl])

theorem noFolder_erase (n : String) (es : List (String × Entry)) : NoFolder n (Entries.erase n es) :=
  noFolder_of_none (by rw [Entries.get?_erase, if_pos rfl])

theorem Entry.LeadsTo.noFolder_iff (h : LeadsTo root way es) :
    NoFolder n es ↔ root.shape? (Location.place ⟨way, n⟩) ≠ .ok none := by
  rw [Location.place, Entry.shape?_child h.folder, NoFolder]
  cases hget : Entries.get? n es with
  | none => simp
  | some e => cases e <;> simp [Entry.bytes?]

/-- Putting a file where there is no folder. -/
theorem put_file (h : LeadsTo root way es) (hn : NoFolder n es) (bytes : ByteArray) :
    Touches [⟨way, n⟩] root (root.put ⟨way, n⟩ (.file bytes)) ∧
      LeadsTo (root.put ⟨way, n⟩ (.file bytes)) way (Entries.insert n (.file bytes) es) := by
  have hothers (m : String) (hm : m ≠ n) :
      Entries.get? m (Entries.insert n (.file bytes) es) = Entries.get? m es := by
    rw [Entries.get?_insert, if_neg hm.symm]
  have hn' := noFolder_insert n bytes es
  obtain ⟨hsame, hleads⟩ := h.changeAt hn hn' hothers
  refine ⟨⟨hsame, fun p hp => ?_⟩, hleads⟩
  rw [Entry.put, h.changeAt_eq]
  exact Entry.file?_change hn hn' hothers h.folder (hp _ (List.mem_singleton_self _))

/-- Taking a file away. -/
theorem take_file (h : LeadsTo root way es) (hn : NoFolder n es) :
    Touches [⟨way, n⟩] root (root.take ⟨way, n⟩) ∧
      LeadsTo (root.take ⟨way, n⟩) way (Entries.erase n es) := by
  have hothers (m : String) (hm : m ≠ n) :
      Entries.get? m (Entries.erase n es) = Entries.get? m es := by
    rw [Entries.get?_erase, if_neg hm.symm]
  have hn' := noFolder_erase n es
  obtain ⟨hsame, hleads⟩ := h.changeAt hn hn' hothers
  refine ⟨⟨hsame, fun p hp => ?_⟩, hleads⟩
  rw [Entry.take, h.changeAt_eq]
  exact Entry.file?_change hn hn' hothers h.folder (hp _ (List.mem_singleton_self _))

theorem file?_put_file (h : LeadsTo root way es) (hn : NoFolder n es) (bytes : ByteArray) :
    (root.put ⟨way, n⟩ (.file bytes)).file? (Location.place ⟨way, n⟩) = some bytes := by
  rw [Location.place, Entry.file?_child (put_file h hn bytes).2.folder, Entries.get?_insert,
    if_pos rfl]
  rfl

theorem write_eq_ok (h : write root l bytes = .ok root') (hn : Plain l.name) :
    Touches [l] root root' ∧ root'.file? l.place = some bytes := by
  rw [write] at h
  split at h
  · cases h
  · next x hfolder hlook =>
    cases h
    obtain ⟨-, es, hleads, rfl⟩ := Entry.look?_eq_ok hn hlook
    have hno := noFolder_of_ne hfolder
    exact ⟨(put_file hleads hno bytes).1, file?_put_file hleads hno bytes⟩
  · cases h

theorem removeFile_eq_ok (h : removeFile root l = .ok root') (hn : Plain l.name) :
    Touches [l] root root' := by
  rw [removeFile] at h
  split at h
  · next b hlook =>
    cases h
    obtain ⟨-, es, hleads, hget⟩ := Entry.look?_eq_ok hn hlook
    exact (take_file hleads (noFolder_of_file hget.symm)).1
  · cases h
  · cases h
  · cases h

theorem copy_eq_ok (h : copy root existing l = .ok root') (hn : Plain l.name) :
    Touches [l] root root' := by
  rw [copy] at h
  split at h
  · exact (write_eq_ok h hn).1
  · cases h
  · cases h

/-- A link makes a file that has the bytes of the other one. -/
theorem link_eq_ok (h : link root existing new = .ok root') (hexisting : Plain existing.name)
    (hnew : Plain new.name) :
    Touches [new] root root' ∧ root'.Reaches new ∧
      root'.file? new.place = root.file? existing.place := by
  rw [link] at h
  split at h
  · cases h
  · cases h
  · cases h
  · cases h
  · cases h
  · next e hfolder hexistingLook hlook =>
    cases h
    obtain ⟨hreaches, es, hleads, hget⟩ := Entry.look?_eq_ok hnew hlook
    obtain ⟨-, es', hleads', hgetExisting⟩ := Entry.look?_eq_ok hexisting hexistingLook
    cases e with
    | folder entries => exact absurd rfl (hfolder entries)
    | file bytes =>
      have hno := noFolder_of_none hget.symm
      have htouches := (put_file hleads hno bytes).1
      refine ⟨htouches, Entry.follow?_of_sameFolders htouches.folders hreaches,
        (file?_put_file hleads hno bytes).trans ?_⟩
      rw [Location.place, Entry.file?_child hleads'.folder, ← hgetExisting]
      rfl

/-! ## Moving -/

/-- Where an entry has been taken away there is nothing. -/
theorem at?_take (h : LeadsTo root way es) (n : String) (rest : List String) :
    (root.take ⟨way, n⟩).at? (placeOf way ++ n :: rest) = .error .missing := by
  have hat : (root.take ⟨way, n⟩).at? (placeOf way) = .ok (.folder (Entries.erase n es)) := by
    rw [Entry.take, h.changeAt_eq]
    exact Entry.at?_change h.folder
  rw [Entry.at?_append, hat]
  simp only [Except.bind, Entry.at?, Entries.get?_erase, if_true]

theorem shape?_take_apart {q : List String} (h : LeadsTo root way es)
    (hq : ¬Location.place ⟨way, n⟩ <+: q) : (root.take ⟨way, n⟩).shape? q = root.shape? q := by
  rw [Entry.take, h.changeAt_eq]
  exact Entry.shape?_change_apart (fun es m hm => by rw [Entries.get?_erase, if_neg hm.symm]) hq

theorem clash?_file {found : Option Entry} :
    clash? (.file bytes) found = none ↔ ∀ entries, found ≠ some (.folder entries) := by
  rcases found with _ | ⟨b | entries⟩ <;> simp [clash?]

/-- Neither of two locations is below the other one. -/
structure Apart (source target : Location) : Prop where
  below : ¬source.place <+: target.place
  above : ¬target.place <+: source.place

theorem Apart.ne (h : Apart existing new) : existing.place ≠ new.place :=
  fun he => h.below (he ▸ List.prefix_refl _)

theorem apart_siblings (hne : source ≠ target) : Apart ⟨way, source⟩ ⟨way, target⟩ :=
  ⟨fun h => hne (eq_of_begins h), fun h => hne (eq_of_begins h).symm⟩

/-- What has been moved: the entry is taken where it stood and put at the other place, which does not
depend on it. -/
def Entry.moved (root : Entry) (source target : Location) (e : Entry) : Entry :=
  (root.take source).change (Entries.insert target.name e) (placeOf target.folder)

theorem rename_eq_ok_iff (hne : existing.place ≠ new.place) :
    rename root existing new = .ok root' ↔ Apart existing new ∧ ∃ e found,
      root.look? existing = .ok (some e) ∧ root.look? new = .ok found ∧ clash? e found = none ∧
        root' = root.moved existing new e := by
  rw [rename]
  constructor
  · intro h
    split at h
    · cases h
    · cases h
    · cases h
    · next e found hlook hlook' =>
      rw [if_neg hne] at h
      split at h
      · cases h
      next hsource =>
        split at h
        · cases h
        next htarget =>
          split at h
          · cases h
          · next hclash =>
            cases h
            exact ⟨⟨hsource, htarget⟩, e, found, hlook, hlook', hclash, rfl⟩
  · rintro ⟨hapart, e, found, hlook, hlook', hclash, rfl⟩
    rw [hlook, hlook']
    simp only [if_neg hne, if_neg hapart.below, if_neg hapart.above, hclash]
    rfl

theorem rename_of_place_eq (hplace : existing.place = new.place)
    (h : rename root existing new = .ok root') : root' = root := by
  rw [rename] at h
  split at h
  · cases h
  · cases h
  · cases h
  · rw [if_pos hplace] at h
    exact (Except.ok.inj h).symm

/-- Where the moved entry stands, and that nothing stands where it was. -/
theorem at?_moved {e : Entry} {es' : List (String × Entry)} (h : LeadsTo root existing.folder es)
    (h' : LeadsTo root new.folder es') (hapart : Apart existing new) :
    (root.moved existing new e).at? new.place = .ok e ∧
      (root.moved existing new e).shape? existing.place = .error .missing := by
  have hway : ¬existing.place <+: placeOf new.folder :=
    fun hbegins => hapart.below (hbegins.trans (List.prefix_append _ _))
  obtain ⟨taken, htaken⟩ := Entry.shape?_eq_folder.1 ((shape?_take_apart h hway).trans h'.shape)
  have hgone : (root.take existing).shape? existing.place = .error .missing := by
    rw [Entry.shape?, Location.place, at?_take h existing.name []]
    rfl
  constructor
  · rw [Entry.moved, Location.place, Entry.at?_child (Entry.at?_change htaken), Entries.get?_insert,
      if_pos rfl]
  · refine (Entry.shape?_change_apart (fun es m hm => ?_) hapart.above).trans hgone
    rw [Entries.get?_insert, if_neg hm.symm]

/-- A file that is moved is put in its place. -/
theorem moved_file {es' : List (String × Entry)} (h : LeadsTo root existing.folder es)
    (h' : LeadsTo root new.folder es') (hget : Entries.get? existing.name es = some (.file bytes)) :
    root.moved existing new (.file bytes) = (root.take existing).put new (.file bytes) := by
  obtain ⟨htake, -⟩ := take_file h (noFolder_of_file hget)
  obtain ⟨taken, hleads⟩ := h'.of_sameFolders htake.folders
  rw [Entry.moved, Entry.put, hleads.changeAt_eq]

theorem touches_moved {es' : List (String × Entry)} (h : LeadsTo root existing.folder es)
    (h' : LeadsTo root new.folder es') (hget : Entries.get? existing.name es = some (.file bytes))
    (hno : NoFolder new.name es') :
    Touches [existing, new] root (root.moved existing new (.file bytes)) := by
  obtain ⟨htake, -⟩ := take_file h (noFolder_of_file hget)
  obtain ⟨taken, hleads⟩ := h'.of_sameFolders htake.folders
  have hno' : NoFolder new.name taken :=
    hleads.noFolder_iff.2 fun hfolder => h'.noFolder_iff.1 hno ((htake.folders _).2 hfolder)
  rw [moved_file h h' hget]
  exact (htake.mono (by simp)).trans ((put_file hleads hno' bytes).1.mono (by simp))

/-- A move takes the bytes of a file along, and a folder is no file anywhere. -/
theorem rename_eq_ok (h : rename root existing new = .ok root') (hexisting : Plain existing.name)
    (hnew : Plain new.name) (hne : existing.place ≠ new.place) :
    root'.file? new.place = root.file? existing.place ∧ root'.file? existing.place = none ∧
      (root.shape? existing.place ≠ .ok none → Touches [existing, new] root root') := by
  obtain ⟨hapart, e, found, hlook, hlook', hclash, rfl⟩ := (rename_eq_ok_iff hne).1 h
  obtain ⟨-, es, hleads, hget⟩ := Entry.look?_eq_ok hexisting hlook
  obtain ⟨-, es', hleads', rfl⟩ := Entry.look?_eq_ok hnew hlook'
  obtain ⟨hmoved, hgone⟩ := @at?_moved root existing new es e es' hleads hleads' hapart
  refine ⟨?_, ?_, fun hshape => ?_⟩
  · rw [Entry.file?, hmoved, Location.place, Entry.file?_child hleads.folder, ← hget]
    rfl
  · cases hfile : (root.moved existing new e).file? existing.place with
    | none => rfl
    | some b => cases hgone.symm.trans (Entry.shape?_eq_file.2 hfile)
  · cases e with
    | file bytes =>
      exact touches_moved hleads hleads' hget.symm (noFolder_of_ne (clash?_file.1 hclash))
    | folder entries =>
      refine absurd ?_ hshape
      rw [Location.place, Entry.shape?_child hleads.folder, ← hget]
      rfl

/-! ### Within a folder -/

/-- A file is moved under another name of its folder. -/
theorem rename_file (hsource : Plain source) (hne : source ≠ target) {found : Option Entry}
    (hlook : root.look? ⟨way, source⟩ = .ok (some (.file bytes)))
    (hlook' : root.look? ⟨way, target⟩ = .ok found)
    (hfound : ∀ entries, found ≠ some (.folder entries)) :
    rename root ⟨way, source⟩ ⟨way, target⟩ =
      .ok ((root.take ⟨way, source⟩).put ⟨way, target⟩ (.file bytes)) := by
  have hapart : Apart ⟨way, source⟩ ⟨way, target⟩ := apart_siblings hne
  obtain ⟨-, es, hleads, hget⟩ := Entry.look?_eq_ok hsource hlook
  rw [← @moved_file root _ _ es bytes es hleads hleads hget.symm]
  exact (rename_eq_ok_iff hapart.ne).2
    ⟨hapart, _, found, hlook, hlook', clash?_file.2 hfound, rfl⟩

theorem leadsTo_put_take (h : LeadsTo root way es)
    (hsource : Entries.get? source es = some (.file bytes)) (htarget : NoFolder target es)
    (hne : source ≠ target) :
    LeadsTo ((root.take ⟨way, source⟩).put ⟨way, target⟩ (.file bytes)) way
      (Entries.insert target (.file bytes) (Entries.erase source es)) := by
  obtain ⟨-, hleads⟩ := take_file h (noFolder_of_file hsource)
  refine (put_file hleads ?_ bytes).2
  rw [NoFolder, Entries.get?_erase, if_neg hne]
  exact htarget

/-! ## Folders -/

/-- Nothing is found below an empty folder that has been removed. -/
theorem removeFolder_eq_ok (hn : Plain n) (h : removeFolder root ⟨way, n⟩ = .ok root')
    (m : String) : root'.file? (Location.place ⟨way ++ [n], m⟩) = none := by
  rw [removeFolder] at h
  split at h
  · next hlook =>
    cases h
    obtain ⟨-, es, hleads, -⟩ := Entry.look?_eq_ok hn hlook
    have hgone : (root.take ⟨way, n⟩).at? (Location.place ⟨way ++ [n], m⟩) = .error .missing := by
      rw [Location.place, placeOf_of_plain hn, List.append_assoc]
      exact at?_take hleads n [m]
    rw [Entry.file?, hgone]
    rfl
  · cases h
  · cases h
  · cases h
  · cases h

/-- The folders on a way to a folder stand already. -/
theorem growFrom_append {rest here place : List String} (more : List String)
    (hsteps : rest.foldlM root.step? here = .ok place) (hplace : root.at? place = .ok (.folder es)) :
    root.growFrom here (rest ++ more) = root.growFrom place more := by
  induction rest generalizing here with
  | nil =>
    cases hsteps
    rfl
  | cons name rest ih =>
    rw [List.foldlM_cons] at hsteps
    rw [List.cons_append, Entry.growFrom]
    cases hstep : root.step? here name with
    | error f =>
      rw [hstep] at hsteps
      cases hsteps
    | ok next =>
      rw [hstep] at hsteps
      have hnext : ∃ es, root.at? next = .ok (.folder es) := by
        cases rest with
        | nil =>
          cases hsteps
          exact ⟨es, hplace⟩
        | cons name' rest =>
          change ((name' :: rest).foldlM root.step? next) = .ok place at hsteps
          rw [List.foldlM_cons] at hsteps
          cases hstep' : root.step? next name' with
          | error f =>
            rw [hstep'] at hsteps
            cases hsteps
          | ok next' => exact Entry.shape?_eq_folder.1 (Entry.step?_eq_ok hstep').1
      obtain ⟨es', hat⟩ := hnext
      simp only [hat]
      exact ih hsteps

theorem grow_of_leadsTo (h : LeadsTo root way es) : root.grow way = (.ok (), root) := by
  have hgrow := growFrom_append [] h.foldlM h.folder
  rw [List.append_nil] at hgrow
  rw [Entry.grow, Entry.check_of_follow? h.follow]
  simp only [hgrow, Entry.growFrom, h.folder]

theorem file?_insert_folder (hn : Entries.get? n es = none) (q : List String) :
    (Entry.folder (Entries.insert n (.folder []) es)).file? q = (Entry.folder es).file? q := by
  cases q with
  | nil => rfl
  | cons m q =>
    rw [Entry.file?_cons, Entry.file?_cons, Entries.get?_insert]
    by_cases hm : n = m
    · subst hm
      rw [if_pos rfl, hn]
      cases q <;> rfl
    · rw [if_neg hm]

theorem file?_insert {m : String} {e e' : Entry} (hget : Entries.get? m es = some e)
    (h : ∀ q, e'.file? q = e.file? q) (q : List String) :
    (Entry.folder (Entries.insert m e' es)).file? q = (Entry.folder es).file? q := by
  cases q with
  | nil => rfl
  | cons m' q =>
    rw [Entry.file?_cons, Entry.file?_cons, Entries.get?_insert]
    by_cases hm : m = m'
    · subst hm
      rw [if_pos rfl, hget]
      exact h q
    · rw [if_neg hm]

theorem at?_dropLast_ne_missing {p : List String} {e : Entry} (h : root.at? p = .ok e) :
    root.at? p.dropLast ≠ .error .missing := by
  rcases List.eq_nil_or_concat p with rfl | ⟨q, m, rfl⟩
  · rw [List.dropLast_nil, h]
    exact nofun
  · rw [List.concat_eq_append, Entry.at?_append] at h
    rw [List.concat_eq_append, List.dropLast_concat]
    intro hmissing
    rw [hmissing] at h
    cases h

/-- Only a new name leads to where nothing stands. -/
theorem new_of_step? {here next : List String} (hstep : root.step? here n = .ok next)
    (hmissing : root.at? next = .error .missing) :
    next = here ++ [n] ∧ ∃ es, root.at? here = .ok (.folder es) ∧ Entries.get? n es = none := by
  obtain ⟨hshape, rfl⟩ := Entry.step?_eq_ok hstep
  obtain ⟨es, hat⟩ := Entry.shape?_eq_folder.1 hshape
  rw [walk] at hmissing ⊢
  split at hmissing
  · exact absurd hmissing (at?_dropLast_ne_missing hat)
  · next hup =>
    rw [if_neg hup]
    split at hmissing
    · rw [hat] at hmissing
      cases hmissing
    · next hhere =>
      refine ⟨if_neg hhere, es, hat, ?_⟩
      rw [Entry.at?_child hat] at hmissing
      cases hget : Entries.get? n es with
      | none => rfl
      | some e =>
        rw [hget] at hmissing
        cases hmissing

/-- Making folders changes no file. -/
theorem file?_growFrom (rest here : List String) (root : Entry) (q : List String) :
    (root.growFrom here rest).2.file? q = root.file? q := by
  induction rest generalizing root here with
  | nil => rw [Entry.growFrom]
  | cons name rest ih =>
    rw [Entry.growFrom]
    split
    · rfl
    · next next hstep =>
      split
      · next hmissing =>
        obtain ⟨-, es, hat, hget⟩ := new_of_step? hstep hmissing
        rw [ih]
        exact Entry.change_keeps (K := fun e e' => ∀ q, e'.file? q = e.file? q)
          (fun es m e e' => file?_insert) hat (file?_insert_folder hget) q
      · exact ih next root

theorem file?_grow (way : List String) (root : Entry) (q : List String) :
    (root.grow way).2.file? q = root.file? q := by
  rw [Entry.grow]
  split
  · exact file?_growFrom way [] root q
  · rfl

/-! ## Reading -/

theorem look?_of_read {l : Location} (h : read root l = .ok bytes) :
    root.look? l = .ok (some (.file bytes)) := by
  rw [read] at h
  split at h
  · next b hlook =>
    cases h
    exact hlook
  · cases h
  · cases h
  · cases h

/-- The bytes of a file are read if the way to it can be followed. -/
theorem read_eq_ok (hn : Plain n) :
    read root ⟨way, n⟩ = .ok bytes ↔
      root.Reaches ⟨way, n⟩ ∧ root.file? (Location.place ⟨way, n⟩) = some bytes := by
  constructor
  · intro h
    obtain ⟨hreaches, es, hleads, hget⟩ := Entry.look?_eq_ok hn (look?_of_read h)
    refine ⟨hreaches, ?_⟩
    rw [Location.place, Entry.file?_child hleads.folder, ← hget]
    rfl
  · rintro ⟨hreaches, hfile⟩
    have hat : root.at? (Location.place ⟨way, n⟩) = .ok (.file bytes) := by
      rw [Entry.file?] at hfile
      cases hat : root.at? (Location.place ⟨way, n⟩) with
      | error f => rw [hat] at hfile; cases hfile
      | ok e =>
        rw [hat] at hfile
        cases e with
        | file b => cases hfile; rfl
        | folder es => cases hfile
    rw [read, Entry.look?, hreaches]
    simp only [hat]

/-! ## Answers -/

theorem settle_eq_ok {x : Except Fault Entry} (h : settle root x = (.ok (), root')) :
    x = .ok root' := by
  cases x with
  | ok next => cases h; rfl
  | error f => cases h

theorem settle_eq_error {x : Except Fault Entry} {f : Fault}
    (h : settle root x = (.error f, root')) : root' = root := by
  cases x with
  | ok next => cases h
  | error f => cases h; rfl

variable {reply : Except Fault Unit}

/-- An operation that touches certain files when it succeeds touches no others when it fails. -/
theorem touches_of_settle {x : Except Fault Entry}
    (hx : ∀ next, x = .ok next → Touches files root next)
    (h : settle root x = (reply, root')) : Touches files root root' := by
  cases reply with
  | ok u => exact hx root' (settle_eq_ok h)
  | error f =>
    rw [settle_eq_error h]
    exact Touches.refl files root

theorem touches_removeFile (h : answer (.removeFile l) root = (reply, root')) (hn : Plain l.name) :
    Touches [l] root root' :=
  touches_of_settle (fun _ h => removeFile_eq_ok h hn) h

theorem touches_copy (h : answer (.copy existing l) root = (reply, root')) (hn : Plain l.name) :
    Touches [l] root root' :=
  touches_of_settle (fun _ h => copy_eq_ok h hn) h

theorem touches_link (h : answer (.link existing new) root = (reply, root'))
    (hexisting : Plain existing.name) (hnew : Plain new.name) : Touches [new] root root' :=
  touches_of_settle (fun _ h => (link_eq_ok h hexisting hnew).1) h

/-- After a link the name has its bytes, or those of the other file. -/
theorem file?_link (h : answer (.link existing new) root = (reply, root'))
    (hexisting : Plain existing.name) (hnew : Plain new.name) :
    root'.file? new.place = root.file? new.place ∨
      root'.file? new.place = root.file? existing.place := by
  cases reply with
  | ok u => exact .inr (link_eq_ok (settle_eq_ok h) hexisting hnew).2.2
  | error f => exact .inl (by rw [settle_eq_error h])

theorem reaches_link (h : answer (.link existing new) root = (.ok (), root'))
    (hexisting : Plain existing.name) (hnew : Plain new.name) : root'.Reaches new :=
  (link_eq_ok (settle_eq_ok h) hexisting hnew).2.1

end ClusterLedger.Disk
