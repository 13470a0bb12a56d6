import ClusterLedger.Proofs.Backend.FolderLedger
import ClusterLedger.Proofs.Backend.ObjectsLedger

/-!
# Places of states

The states of targets are in a folder or in a store. Either way the place keeps a ledger, and what
is loaded and listed there tells the documents of the ledger.
-/
namespace ClusterLedger.Backend

/-- Where the states of targets are: in a folder of a disk, or below a path in a store. -/
inductive Place where
  | folder (root : Folder)
  | objects (path : String)

namespace Place

/-- The disk, or what is in the store. -/
def State : Place → Type
  | folder _ => Disk.Entry
  | objects _ => Store.Memory.Objects

def storage : (p : Place) → Storage p.State
  | folder root => root.storage
  | objects path => (Objects.ofPath path).storage

/-- Nothing is there yet. A folder has to be named, as one without a name has no listing. -/
def IsEmpty : (p : Place) → p.State → Prop
  | folder root, disk => root.shown ≠ "" ∧ Disk.Entry.LeadsTo disk root.way []
  | objects _, stored => stored = Dict.empty

/-- What is loaded for a target. -/
def load : (p : Place) → p.State → String → Result ByteArray
  | folder root, disk, target => ((root.load target).run Disk.answer disk).1
  | objects path, stored, target =>
    (((Objects.ofPath path).load target).run Store.Memory.answer stored).1

/-- The targets that are listed. -/
def list : (p : Place) → p.State → Result (List String)
  | folder root, disk => (root.list.run Disk.answer disk).1
  | objects path, stored => ((Objects.ofPath path).list.run Store.Memory.answer stored).1

/-- What stands in the place of the lock record of a target. -/
def lockRecord? : (p : Place) → p.State → String → Option ByteArray
  | folder root, disk, target => disk.file? ((root.sub target).file Target.lockFile).place
  | objects path, stored, target => stored.get? ((Objects.ofPath path).keyOf target Target.lockFile)

/-- The place has room for what a caller makes for a target. -/
def Admits : Place → Caller → String → Prop
  | folder root, caller, target => root.Admits caller target
  | objects _, _, _ => True

/-! ## The ledger of a place -/

def manner : Place → Manner
  | folder root => root.manner
  | objects path => (Objects.ofPath path).manner

def Holds : (p : Place) → p.State → Ledger → Prop
  | folder root, disk, l => root.shown ≠ "" ∧ root.Holds disk l
  | objects path, stored, l => (Objects.ofPath path).Holds stored l

def AdmitsCall : Place → Caller → Request → Prop
  | folder root, caller, r => root.AdmitsCall caller r
  | objects _, _, _ => True

variable {p : Place} {s : p.State} {l : Ledger} {caller : Caller} {target : String}

theorem holds_empty (h : p.IsEmpty s) : p.Holds s .empty := by
  cases p with
  | folder root => exact ⟨h.1, Folder.holds_empty h.2⟩
  | objects path =>
    obtain rfl : s = Dict.empty := h
    exact Objects.holds_empty _

theorem keeps (p : Place) : Keeps p.storage p.manner p.Holds p.AdmitsCall where
  proper h := by
    cases p with
    | folder root => exact h.2.proper
    | objects path => exact h.proper
  answers := by
    intro s l caller r staleAfter h hshows hadmits hgenuine
    cases p with
    | folder root =>
      obtain ⟨hreply, hholds⟩ := (root.keeps h.1).answers staleAfter h.2 hshows hadmits hgenuine
      exact ⟨hreply, h.1, hholds⟩
    | objects path => exact (Objects.keeps path).answers staleAfter h hshows hadmits hgenuine

theorem admitsCall_of_target {r : Request}
    (h : ∀ t, r.target? = some t → Target.isValid t → p.Admits caller t) :
    p.AdmitsCall caller r := by
  cases p with
  | folder root => exact Folder.admitsCall_of_target h
  | objects path => exact trivial

/-- Without a document a target is missing. -/
theorem absent_isMissing (hadmits : p.Admits caller target) (hvalid : Target.isValid target) :
    (p.manner.absent target).isMissing = true := by
  cases p with
  | folder root =>
    have habsent : root.manner.absent target = .missing (.snapshot target) :=
      Folder.absent_of_admits hadmits hvalid
    show Error.isMissing (root.manner.absent target) = true
    rw [habsent]
    rfl
  | objects path => rfl

/-! ## What is seen of the ledger -/

/-- One who only reads. -/
def reader : Caller :=
  ⟨"", 0, ⟨0, 0⟩, fun _ => ""⟩

theorem shows_reader : reader.now.Shows :=
  ⟨by decide, by decide⟩

theorem admitsCall_reader {r : Request} (h : r = .list ∨ ∃ target, r = .load target) :
    p.AdmitsCall reader r := by
  cases p with
  | folder root => rcases h with rfl | ⟨target, rfl⟩ <;> exact trivial
  | objects path => exact trivial

theorem load_eq (h : p.Holds s l) (target : String) :
    p.load s target = if Target.isValid target then l.load p.manner.absent target
      else .error (.invalidTarget target) := by
  have hgenuine : l.Genuine (.load target) := nofun
  obtain ⟨hreply, -⟩ := p.keeps.answers 0 h shows_reader (admitsCall_reader (.inr ⟨target, rfl⟩))
    hgenuine
  have hload : p.load s target = (p.storage reader 0 (.load target) s).1 := by
    cases p <;> rfl
  rw [hload, hreply]
  by_cases hvalid : Target.isValid target
  · have htargets : ∀ t, Request.target? (.load target) = some t → Target.isValid t := by
      rintro t ⟨⟩
      exact hvalid
    rw [Ledger.answer_of_valid l htargets, if_pos hvalid]
    rfl
  · rw [Ledger.answer_of_invalid l rfl hvalid, if_neg hvalid]

theorem list_eq (h : p.Holds s l) : p.list s = .ok l.documents.keys := by
  have hgenuine : l.Genuine .list := nofun
  obtain ⟨hreply, -⟩ := p.keeps.answers 0 h shows_reader (admitsCall_reader (.inl rfl)) hgenuine
  have hlist : p.list s = (p.storage reader 0 .list s).1 := by
    cases p <;> rfl
  rw [hlist, hreply]
  rfl

/-- What is loaded for a target is told by its document. -/
theorem load_congr {s' : p.State} {l' : Ledger} (h : p.Holds s l) (h' : p.Holds s' l')
    (hget : l'.documents.get? target = l.documents.get? target) :
    p.load s' target = p.load s target := by
  rw [load_eq h, load_eq h', Ledger.load, Ledger.load, hget]

theorem toOption_load (h : p.Holds s l) (target : String) :
    (p.load s target).toOption = l.documents.get? target := by
  rw [load_eq h, Ledger.load]
  cases hget : l.documents.get? target with
  | none => split <;> rfl
  | some bytes =>
    rw [if_pos ((p.keeps.proper h).documents target bytes hget)]
    rfl

theorem lockRecord?_eq (h : p.Holds s l) (hvalid : Target.isValid target) :
    p.lockRecord? s target = (l.locks.get? target).map Lock.toBytes := by
  cases p with
  | folder root => exact h.2.lockFile hvalid
  | objects path => exact Objects.Holds.lockFile h hvalid

/-! ## Long names -/

/-- A target with a name of so many letters. -/
def lettered (n : Nat) : String :=
  String.ofList (List.replicate n 'a')

theorem toList_lettered (n : Nat) : (lettered n).toList = List.replicate n 'a' :=
  String.toList_ofList

theorem utf8ByteSize_lettered (n : Nat) : (lettered n).utf8ByteSize = n := by
  induction n with
  | zero => rfl
  | succ n ih =>
    rw [lettered] at ih ⊢
    rw [List.replicate_succ, String.ofList_cons, String.utf8ByteSize_append, ih,
      String.utf8ByteSize_singleton]
    exact Nat.add_comm 1 n

theorem isValid_lettered {n : Nat} (h : 0 < n) : Target.isValid (lettered n) = true := by
  have hhead : (lettered n).toList.head? = some 'a' := by
    rw [toList_lettered, List.head?_replicate, if_neg (by omega)]
  have hne {s : String} (hs : s.toList.head? ≠ some 'a') : lettered n ≠ s := by
    rintro rfl
    exact hs hhead
  rw [Target.isValid, decide_eq_true_eq, toList_lettered, List.all_replicate]
  exact ⟨hne (by decide), hne (by decide), hne (by decide), by split <;> decide⟩

theorem isName_lettered (n : Nat) : Disk.isName (lettered n) = true := by
  rw [Disk.isName, toList_lettered, List.all_replicate]
  split <;> decide

theorem check_lettered {n : Nat} (h : n < 4000) {file : String} (hfile : Disk.isName file = true)
    (hsize : file.utf8ByteSize < 90) : Disk.Entry.check ["s", lettered n, file] = .ok () := by
  have hnames : ∀ m ∈ ["s", lettered n, file], Disk.isName m = true := by
    simp only [List.forall_mem_cons]
    exact ⟨by decide, isName_lettered n, hfile, nofun⟩
  have hlength : Disk.wayLength ["s", lettered n, file] =
      2 + (n + 1 + (file.utf8ByteSize + 1)) := by
    rw [Disk.wayLength, Disk.wayLength, utf8ByteSize_lettered]
    rfl
  rw [Disk.Entry.check_of_names hnames, hlength, if_neg (by rw [Disk.wayLimit]; omega)]

end Place

end ClusterLedger.Backend
