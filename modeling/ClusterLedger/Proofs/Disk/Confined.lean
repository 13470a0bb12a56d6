import ClusterLedger.Proofs.Disk.Operations

/-!
# Work in one folder

What is done to the files of one folder is seen nowhere else. While the way to the folder leads there
and the names are not out of reach, every request about the files is answered by the entries alone,
and entries that are put back leave the disk as it was.
-/
namespace ClusterLedger.Disk

open Entry (LeadsTo NoFolder SameFolders)

variable {root root' root'' disk : Entry} {way names : List String} {n source target : String}
  {es es' : List (String × Entry)} {f : List (String × Entry) → List (String × Entry)}
  {bytes other : ByteArray}

/-! ## What is seen of a change -/

/-- The same files and folders stand at the same places. -/
def SameShapes (root root' : Entry) : Prop :=
  ∀ place, root'.shape? place = root.shape? place

/-- Nothing has another shape but what stands in the folder of a way. -/
def Confined (way : List String) (root root' : Entry) : Prop :=
  ∀ place, (∀ n rest, place ≠ placeOf way ++ n :: rest) → root'.shape? place = root.shape? place

theorem SameShapes.refl (root : Entry) : SameShapes root root :=
  fun _ => rfl

theorem Confined.refl (way : List String) (root : Entry) : Confined way root root :=
  fun _ _ => rfl

theorem Confined.trans (h : Confined way root root') (h' : Confined way root' root'') :
    Confined way root root'' :=
  fun place hplace => (h' place hplace).trans (h place hplace)

theorem confined_change (way : List String) (root : Entry) :
    Confined way root (root.change f (placeOf way)) :=
  fun _ hplace => Entry.shape?_change hplace

theorem confined_changeAt (way : List String) (root : Entry) :
    Confined way root (root.changeAt way f) := by
  rcases Entry.changeAt_cases root way f with hsame | hchange
  · rw [hsame]
    exact Confined.refl way root
  · rw [hchange]
    exact confined_change way root

/-- Only what is found under the names of a folder matters. -/
theorem Confined.sameShapes (h : Confined way root root') (hes : LeadsTo root way es)
    (hes' : LeadsTo root' way es') (hget : ∀ n, Entries.get? n es' = Entries.get? n es) :
    SameShapes root root' := by
  intro place
  by_cases hplace : ∃ n rest, place = placeOf way ++ n :: rest
  · obtain ⟨n, rest, rfl⟩ := hplace
    rw [Entry.shape?, Entry.shape?, Entry.at?_append, Entry.at?_append, hes.folder, hes'.folder]
    simp only [Except.bind, Entry.at?, hget]
  · exact h place fun n rest he => hplace ⟨n, rest, he⟩

/-! ## Files within reach -/

theorem look?_of_reaches (h : LeadsTo disk way es) (hn : disk.Reaches ⟨way, n⟩) :
    disk.look? ⟨way, n⟩ = .ok (Entries.get? n es) := by
  rw [Entry.look?, hn]
  simp only [Location.place, Entry.at?_child h.folder]
  cases Entries.get? n es <;> rfl

/-- The file that is read stands in the folder. -/
theorem entry_of_read (hn : Plain n) (h : read disk ⟨way, n⟩ = .ok bytes) :
    disk.Reaches ⟨way, n⟩ ∧ ∃ es, LeadsTo disk way es ∧ Entries.get? n es = some (.file bytes) := by
  obtain ⟨hreaches, es, hes, hget⟩ := Entry.look?_eq_ok hn (look?_of_read h)
  exact ⟨hreaches, es, hes, hget.symm⟩

/-- A disk is another one in the folder of a way at most. The way leads to these entries, and some
names are within reach. -/
structure Works (start : Entry) (way names : List String) (es : List (String × Entry))
    (disk : Entry) : Prop where
  leads : LeadsTo disk way es
  reaches : ∀ n ∈ names, disk.Reaches ⟨way, n⟩
  confined : Confined way start disk

theorem works_start (h : LeadsTo root way es) (hreaches : ∀ n ∈ names, root.Reaches ⟨way, n⟩) :
    Works root way names es root :=
  ⟨h, hreaches, Confined.refl way root⟩

section

variable (h : Works root way names es disk)
include h

theorem Works.look? (hn : n ∈ names) : disk.look? ⟨way, n⟩ = .ok (Entries.get? n es) :=
  look?_of_reaches h.leads (h.reaches n hn)

theorem Works.put (hn : NoFolder n es) (bytes : ByteArray) :
    Works root way names (Entries.insert n (.file bytes) es) (disk.put ⟨way, n⟩ (.file bytes)) := by
  obtain ⟨htouches, hleads⟩ := put_file h.leads hn bytes
  exact ⟨hleads, fun m hm => (h.reaches m hm).of_sameFolders htouches.folders,
    h.confined.trans (confined_changeAt way disk)⟩

theorem Works.take (hn : NoFolder n es) :
    Works root way names (Entries.erase n es) (disk.take ⟨way, n⟩) := by
  obtain ⟨htouches, hleads⟩ := take_file h.leads hn
  exact ⟨hleads, fun m hm => (h.reaches m hm).of_sameFolders htouches.folders,
    h.confined.trans (confined_changeAt way disk)⟩

theorem Works.sameShapes (hes : LeadsTo root way es')
    (hget : ∀ n, Entries.get? n es = Entries.get? n es') : SameShapes root disk :=
  h.confined.sameShapes hes h.leads hget

theorem Works.answer_read (hn : n ∈ names) (hget : Entries.get? n es = some (.file bytes)) :
    answer (.read ⟨way, n⟩) disk = (.ok bytes, disk) := by
  rw [answer, read, h.look? hn, hget]

theorem Works.answer_write (hn : n ∈ names) (hget : Entries.get? n es = none) (bytes : ByteArray) :
    answer (.write ⟨way, n⟩ bytes) disk = (.ok (), disk.put ⟨way, n⟩ (.file bytes)) := by
  rw [answer, write, h.look? hn, hget]
  rfl

theorem Works.answer_removeFile (hn : n ∈ names) (hget : Entries.get? n es = some (.file bytes)) :
    answer (.removeFile ⟨way, n⟩) disk = (.ok (), disk.take ⟨way, n⟩) := by
  rw [answer, removeFile, h.look? hn, hget]
  rfl

theorem Works.answer_link (hsource : source ∈ names) (htarget : target ∈ names)
    (hget : Entries.get? source es = some (.file bytes)) (hnone : Entries.get? target es = none) :
    answer (.link ⟨way, source⟩ ⟨way, target⟩) disk =
      (.ok (), disk.put ⟨way, target⟩ (.file bytes)) := by
  rw [answer, link, h.look? hsource, h.look? htarget, hget, hnone]
  rfl

theorem Works.answer_link_taken (hsource : source ∈ names) (htarget : target ∈ names)
    (hget : Entries.get? source es = some (.file bytes))
    (htaken : Entries.get? target es = some (.file other)) :
    answer (.link ⟨way, source⟩ ⟨way, target⟩) disk = (.error .alreadyThere, disk) := by
  rw [answer, link, h.look? hsource, h.look? htarget, hget, htaken]
  rfl

theorem Works.answer_rename (hplain : Plain source) (hsource : source ∈ names)
    (htarget : target ∈ names) (hne : source ≠ target)
    (hget : Entries.get? source es = some (.file bytes)) (hnone : Entries.get? target es = none) :
    answer (.rename ⟨way, source⟩ ⟨way, target⟩) disk =
      (.ok (), (disk.take ⟨way, source⟩).put ⟨way, target⟩ (.file bytes)) := by
  have hlook := h.look? hsource
  have hlook' := h.look? htarget
  rw [hget] at hlook
  rw [hnone] at hlook'
  rw [answer, rename_file hplain hne hlook hlook' nofun]
  rfl

end

end ClusterLedger.Disk
