import ClusterLedger.Proofs.Backend.Place
import ClusterLedger.Proofs.Text.Utf8

/-!
# Exact listings

A listing is exact when it has the targets that can be loaded, each once and in the order of bytes.
Whatever nobody here has written can make it inexact: in a store, a part of a key that is no target;
on a disk, a folder that holds something in the place of a document that cannot be loaded.
-/
namespace ClusterLedger.Backend

/-- A listing succeeds and has the targets that can be loaded, each once and in the order of bytes. -/
def IsExact (listing : Result (List String)) (load : String → Result ByteArray) : Prop :=
  ∃ targets, listing = .ok targets ∧ targets.Pairwise Text.BytesLt ∧
    ∀ t, t ∈ targets ↔ Target.isValid t ∧ ∃ bytes, load t = .ok bytes

theorem isExact_nil {load : String → Result ByteArray} :
    IsExact (.ok []) load ↔ ∀ t, Target.isValid t → ∀ bytes, load t ≠ .ok bytes := by
  constructor
  · rintro ⟨targets, hlisting, -, hmem⟩ t hvalid bytes hload
    cases hlisting
    exact absurd ((hmem t).2 ⟨hvalid, bytes, hload⟩) List.not_mem_nil
  · intro hnone
    refine ⟨[], rfl, .nil, fun t => iff_of_false List.not_mem_nil ?_⟩
    rintro ⟨hvalid, bytes, hload⟩
    exact hnone t hvalid bytes hload

theorem not_isExact_error {e : Error} {load : String → Result ByteArray} :
    ¬IsExact (.error e) load := by
  rintro ⟨targets, hlisting, -⟩
  cases hlisting

/-- Names in order are in the order of their bytes, and sorting leaves them where they are. -/
theorem isExact_filter {α : Type} {xs : List α} {name : α → String} {p : α → Bool}
    {load : String → Result ByteArray} (hsorted : (xs.map name).Pairwise (· < ·)) :
    IsExact (.ok ((xs.filter p).map name).mergeSort) load ↔
      ∀ t, t ∈ (xs.filter p).map name ↔ Target.isValid t ∧ ∃ bytes, load t = .ok bytes := by
  have hfilter : ((xs.filter p).map name).Pairwise (· < ·) :=
    hsorted.sublist (List.filter_sublist.map name)
  rw [Dict.mergeSort_of_sorted hfilter]
  constructor
  · rintro ⟨targets, hlisting, -, hmem⟩
    cases hlisting
    exact hmem
  · exact fun hmem => ⟨_, rfl, hfilter.imp Text.lt_iff_bytesLt.1, hmem⟩

/-! ## Folders -/

namespace Folder

variable {root : Folder} {disk : Disk.Entry} {es : List (String × Disk.Entry)} {n : String}

/-- Whether something stands in the place of the document of a name. -/
def probeState (root : Folder) (disk : Disk.Entry) (n : String) : Except Disk.Fault Bool :=
  Disk.probe disk ((root.sub n).file Target.stateFile)

/-- The file in the place of the document of a name. -/
def readState (root : Folder) (disk : Disk.Entry) (n : String) : Except Disk.Fault ByteArray :=
  Disk.read disk ((root.sub n).file Target.stateFile)

/-- Every folder is asked, and a fault ends the listing. -/
theorem targets_ends (root : Folder) (disk : Disk.Entry) (ns : List (String × Bool)) :
    (root.targets ns).Ends Disk.answer disk fun r disk' => disk' = disk ∧
      ((∀ n, (n, true) ∈ ns → ∃ b, root.probeState disk n = .ok b) →
        r = .ok ((ns.filter fun e => e.2 && (root.probeState disk e.1).toOption.getD false).map
          Prod.fst)) ∧
      (∀ found, r = .ok found → ∀ n, (n, true) ∈ ns → ∃ b, root.probeState disk n = .ok b) := by
  induction ns with
  | nil => exact ⟨rfl, fun _ => rfl, fun _ _ n hn => by cases hn⟩
  | cons e rest ih =>
    obtain ⟨n, isFolder⟩ := e
    cases isFolder with
    | false =>
      refine Attempt.Ends.imp ih fun r disk' h => ⟨h.1, fun hall => ?_, fun found hr m hm => ?_⟩
      · exact h.2.1 fun m hm => hall m (List.mem_cons_of_mem _ hm)
      · exact h.2.2 found hr m (by simpa using hm)
    | true =>
      refine ends_ask_bind (fun b next hanswer => ?_) (fun fault next hanswer => ?_)
      · obtain rfl : disk = next := congrArg Prod.snd hanswer
        have hprobe : root.probeState disk n = .ok b := congrArg Prod.fst hanswer
        refine Attempt.ends_bind.2 (ih.imp fun r disk' h => ?_)
        obtain ⟨rfl, hok, herror⟩ := h
        cases r with
        | ok others =>
          refine ⟨rfl, fun hall => ?_, fun found _ m hm => ?_⟩
          · have hothers := hok fun m hm => hall m (List.mem_cons_of_mem _ hm)
            cases hothers
            rw [List.filter_cons, hprobe]
            cases b <;> rfl
          · rcases List.mem_cons.1 hm with heq | hm
            · cases heq
              exact ⟨b, hprobe⟩
            · exact herror others rfl m hm
        | error e =>
          refine ⟨rfl, fun hall => ?_, fun found hr => by cases hr⟩
          cases hok fun m hm => hall m (List.mem_cons_of_mem _ hm)
      · obtain rfl : disk = next := congrArg Prod.snd hanswer
        have hprobe : root.probeState disk n = .error fault := congrArg Prod.fst hanswer
        refine ⟨rfl, fun hall => ?_, nofun⟩
        obtain ⟨b, hb⟩ := hall n List.mem_cons_self
        rw [hprobe] at hb
        cases hb

theorem mem_found {ns : List (String × Bool)} :
    n ∈ (ns.filter fun e => e.2 && (root.probeState disk e.1).toOption.getD false).map Prod.fst ↔
      (n, true) ∈ ns ∧ root.probeState disk n = .ok true := by
  have htrue (x : Except Disk.Fault Bool) : x.toOption.getD false = true ↔ x = .ok true := by
    cases x with
    | ok b => simp [Except.toOption]
    | error f => simp [Except.toOption]
  simp only [List.mem_map, List.mem_filter, Bool.and_eq_true, htrue]
  constructor
  · rintro ⟨⟨m, b⟩, ⟨hm, rfl, hprobe⟩, rfl⟩
    exact ⟨hm, hprobe⟩
  · rintro ⟨hn, hprobe⟩
    exact ⟨(n, true), ⟨hn, rfl, hprobe⟩, rfl⟩

/-- The names in a folder, with whether a folder has the name. -/
theorem mem_names {ns : List (String × Bool)} (hes : Disk.Entry.LeadsTo disk root.way es)
    (hns : Disk.names disk root.way = .ok ns) :
    (n, true) ∈ ns ↔ ∃ sub, Entries.get? n es = some (.folder sub) := by
  rw [Disk.names, Disk.Entry.folderAt?_eq_ok.2 hes] at hns
  cases hns
  rw [← Dict.get?_eq_some, Dict.get?_ofList, ← List.map_reverse, List.reverse_reverse,
    Entries.get?_mapValues fun _ e => Disk.Entry.isFolder e]
  cases Entries.get? n es with
  | none => simp
  | some e => cases e <;> simp [Disk.Entry.isFolder]

theorem names_sorted {ns : List (String × Bool)} (hns : Disk.names disk root.way = .ok ns) :
    (ns.map Prod.fst).Pairwise (· < ·) := by
  obtain ⟨es, -, rfl⟩ := Except.map_eq_ok.1 hns
  exact Dict.keys_sorted _

/-- A document that can be read is in a folder of the root, where it is found. -/
theorem of_readState {bytes : ByteArray} (hn : Disk.Plain n)
    (h : root.readState disk n = .ok bytes) : root.probeState disk n = .ok true ∧
      ∃ es sub, Disk.Entry.LeadsTo disk root.way es ∧ Entries.get? n es = some (.folder sub) := by
  have hlook : disk.look? ((root.sub n).file Target.stateFile) = .ok (some (.file bytes)) :=
    Disk.look?_of_read h
  obtain ⟨-, files, hleads, -⟩ := Disk.Entry.look?_eq_ok plain_stateFile hlook
  obtain ⟨es, hes, hget⟩ := hleads.parent hn
  refine ⟨?_, es, files, hes, hget⟩
  rw [probeState, Disk.probe, hlook]
  rfl

/-- A listing changes nothing. -/
theorem list_ends (root : Folder) (disk : Disk.Entry) :
    root.list.Ends Disk.answer disk fun _ disk' => disk' = disk := by
  rw [list]
  split
  · rfl
  · refine ends_attempt_bind fun reply next hnames => ?_
    obtain rfl : disk = next := congrArg Prod.snd hnames
    cases reply with
    | ok ns =>
      refine Attempt.ends_bind.2 ((targets_ends root disk ns).imp fun r disk' h => ?_)
      cases r <;> exact h.1
    | error fault => cases fault <;> rfl

/-- What the listing finds in a root that is there. -/
theorem list_run {ns : List (String × Bool)} (hshown : root.shown ≠ "")
    (hns : Disk.names disk root.way = .ok ns) :
    (root.list.run Disk.answer disk).1 =
      ((root.targets ns).run Disk.answer disk).1.map fun found => found.mergeSort := by
  have hends : root.list.Ends Disk.answer disk fun r _ =>
      r = ((root.targets ns).run Disk.answer disk).1.map fun found => found.mergeSort := by
    rw [list, if_neg hshown]
    refine ends_attempt_bind fun reply next hanswer => ?_
    obtain rfl : disk = next := congrArg Prod.snd hanswer
    obtain rfl : Disk.names disk root.way = reply := congrArg Prod.fst hanswer
    rw [hns]
    refine Attempt.ends_bind.2 ?_
    unfold Attempt.Ends
    cases ((root.targets ns).run Disk.answer disk).1 <;> rfl
  exact hends

/-- A root that is missing has no targets; any other fault ends the listing. -/
theorem list_run_error {fault : Disk.Fault} (hshown : root.shown ≠ "")
    (hns : Disk.names disk root.way = .error fault) :
    (root.list.run Disk.answer disk).1 =
      if fault = .missing then .ok [] else .error (.disk fault) := by
  have hends : root.list.Ends Disk.answer disk fun r _ =>
      r = if fault = .missing then .ok [] else .error (.disk fault) := by
    rw [list, if_neg hshown]
    refine ends_attempt_bind fun reply next hanswer => ?_
    obtain rfl : disk = next := congrArg Prod.snd hanswer
    obtain rfl : Disk.names disk root.way = reply := congrArg Prod.fst hanswer
    rw [hns]
    cases fault <;> rfl
  exact hends

theorem list_run_unnamed (hshown : root.shown = "") :
    (root.list.run Disk.answer disk).1 = .ok [] := by
  rw [list, if_pos hshown]
  rfl

theorem load_eq_ok {bytes : ByteArray} : ((root.load n).run Disk.answer disk).1 = .ok bytes ↔
    Target.isValid n ∧ root.readState disk n = .ok bytes := by
  rw [load_run, document]
  by_cases hvalid : Target.isValid n
  · rw [target_of_isValid hvalid, and_iff_right hvalid]
    change documentOf n (root.readState disk n) = .ok bytes ↔ _
    cases root.readState disk n with
    | ok b => simp [documentOf]
    | error fault => cases fault <;> simp [documentOf]
  · rw [Folder.target, Target.check, if_neg hvalid]
    exact iff_of_false (fun h => by cases h) fun h => hvalid h.1

/-- Whatever folder there is in the root, either nothing stands in it in the place of a document, or
it is a target whose document can be read. -/
def OnlyTargets (root : Folder) (disk : Disk.Entry) (es : List (String × Disk.Entry)) : Prop :=
  ∀ n sub, Entries.get? n es = some (.folder sub) → root.probeState disk n = .ok false ∨
    Target.isValid n ∧ ∃ bytes, root.readState disk n = .ok bytes

theorem isExact_of_folder (hshown : root.shown ≠ "") (hes : Disk.Entry.LeadsTo disk root.way es) :
    IsExact (root.list.run Disk.answer disk).1 (fun t => ((root.load t).run Disk.answer disk).1) ↔
      root.OnlyTargets disk es := by
  obtain ⟨ns, hns⟩ : ∃ ns, Disk.names disk root.way = .ok ns := by
    rw [Disk.names, Disk.Entry.folderAt?_eq_ok.2 hes]
    exact ⟨_, rfl⟩
  obtain ⟨-, hok, hprobes⟩ := root.targets_ends disk ns
  have hfolder (n : String) : (n, true) ∈ ns ↔ ∃ sub, Entries.get? n es = some (.folder sub) :=
    mem_names hes hns
  have hread {n : String} {bytes : ByteArray} (hvalid : Target.isValid n)
      (h : root.readState disk n = .ok bytes) :
      root.probeState disk n = .ok true ∧ (n, true) ∈ ns := by
    obtain ⟨hprobe, es', sub, hes', hget⟩ := of_readState (plain_of_isValid hvalid) h
    rw [hes.unique hes'] at hget
    exact ⟨hprobe, (hfolder n).2 ⟨sub, hget⟩⟩
  rw [list_run hshown hns]
  -- A folder that cannot be probed makes the listing fail, and is no target.
  by_cases hall : ∀ n, (n, true) ∈ ns → ∃ b, root.probeState disk n = .ok b
  · rw [hok hall]
    refine (isExact_filter (names_sorted hns)).trans ⟨fun hexact n sub hget => ?_, fun honly n => ?_⟩
    · have hn := (hfolder n).2 ⟨sub, hget⟩
      obtain ⟨b, hb⟩ := hall n hn
      cases b with
      | false => exact .inl hb
      | true =>
        obtain ⟨hvalid, bytes, hload⟩ := (hexact n).1 (mem_found.2 ⟨hn, hb⟩)
        exact .inr ⟨hvalid, bytes, (load_eq_ok.1 hload).2⟩
    · rw [mem_found]
      constructor
      · rintro ⟨hn, hprobe⟩
        obtain ⟨sub, hget⟩ := (hfolder n).1 hn
        rcases honly n sub hget with hnone | ⟨hvalid, bytes, hbytes⟩
        · rw [hprobe] at hnone
          cases hnone
        · exact ⟨hvalid, bytes, load_eq_ok.2 ⟨hvalid, hbytes⟩⟩
      · rintro ⟨hvalid, bytes, hload⟩
        exact (hread hvalid (load_eq_ok.1 hload).2).symm
  · refine iff_of_false (fun hexact => hall ?_) fun honly => hall fun n hn => ?_
    · obtain ⟨targets, hlisting, -⟩ := hexact
      obtain ⟨found, hfound, -⟩ := Except.map_eq_ok.1 hlisting
      exact hprobes found hfound
    · obtain ⟨sub, hget⟩ := (hfolder n).1 hn
      rcases honly n sub hget with hnone | ⟨hvalid, bytes, hbytes⟩
      · exact ⟨false, hnone⟩
      · exact ⟨true, (hread hvalid hbytes).1⟩

/-- A root that is missing is listed exactly, as nothing can be loaded there. -/
theorem isExact_of_error {fault : Disk.Fault} (hshown : root.shown ≠ "")
    (hfault : disk.folderAt? root.way = .error fault) :
    IsExact (root.list.run Disk.answer disk).1 (fun t => ((root.load t).run Disk.answer disk).1) ↔
      fault = .missing := by
  have hns : Disk.names disk root.way = .error fault := by
    rw [Disk.names, hfault]
    rfl
  rw [list_run_error hshown hns]
  split
  · next hmissing =>
    refine iff_of_true (isExact_nil.2 fun t hvalid bytes hload => ?_) hmissing
    obtain ⟨-, es, sub, hes, -⟩ := of_readState (plain_of_isValid hvalid) (load_eq_ok.1 hload).2
    rw [Disk.Entry.folderAt?_eq_ok.2 hes] at hfault
    cases hfault
  · next hother => exact iff_of_false not_isExact_error hother

end Folder

/-! ## Stores -/

namespace Objects

variable {o : Objects} {s : Store.Memory.Objects} {n : String}

/-- Every folder of the listing is asked, and a name that is no target ends the listing. -/
theorem targets_ends (o : Objects) (s : Store.Memory.Objects) (lines : List Store.Listed) :
    (o.targets lines).Ends Store.Memory.answer s fun r s' => s' = s ∧
      ((∀ n, ⟨n, .folder⟩ ∈ lines → Target.isValid n) →
        r = .ok ((lines.filter fun line => line.kind = .folder &&
          s.contains (o.keyOf line.name Target.stateFile)).map Store.Listed.name)) ∧
      (∀ found, r = .ok found → ∀ n, ⟨n, .folder⟩ ∈ lines → Target.isValid n) := by
  induction lines with
  | nil => exact ⟨rfl, fun _ => rfl, fun _ _ n hn => by cases hn⟩
  | cons line rest ih =>
    obtain ⟨n, kind⟩ := line
    cases kind with
    | object =>
      refine Attempt.Ends.imp ih fun r s' h => ⟨h.1, fun hall => ?_, fun found hr m hm => ?_⟩
      · rw [h.2.1 fun m hm => hall m (List.mem_cons_of_mem _ hm), List.filter_cons]
        rfl
      · exact h.2.2 found hr m (by simpa using hm)
    | folder =>
      by_cases hn : Target.isValid n
      · have hholds : (o.holdsState n).run Store.Memory.answer s =
            (.ok (s.contains (o.keyOf n Target.stateFile)), s) := by
          refine ends_eq (Attempt.ends_bind.2 (Attempt.ends_ofResult.2 ?_))
          rw [key_of_isValid hn]
          exact ⟨rfl, rfl⟩
        refine Attempt.ends_bind_of_run hholds (Attempt.ends_bind.2 (ih.imp fun r s' h => ?_))
        obtain ⟨rfl, hok, herror⟩ := h
        cases r with
        | ok others =>
          refine ⟨rfl, fun hall => ?_, fun found _ m hm => ?_⟩
          · have hothers := hok fun m hm => hall m (List.mem_cons_of_mem _ hm)
            cases hothers
            simp only [List.filter_cons]
            cases s'.contains (o.keyOf n Target.stateFile) <;> rfl
          · rcases List.mem_cons.1 hm with heq | hm
            · cases heq
              exact hn
            · exact herror others rfl m hm
        | error e =>
          refine ⟨rfl, fun hall => ?_, fun found hr => by cases hr⟩
          cases hok fun m hm => hall m (List.mem_cons_of_mem _ hm)
      · have hholds : (o.holdsState n).run Store.Memory.answer s =
            (.error (.invalidTarget n), s) := by
          refine Attempt.run_bind_error _ ?_
          rw [key, Target.check, if_neg hn]
          rfl
        refine Attempt.ends_bind.2 ?_
        unfold Attempt.Ends
        rw [hholds]
        exact ⟨rfl, fun hall => absurd (hall n List.mem_cons_self) hn, fun found hr => by cases hr⟩

theorem list_run (o : Objects) (s : Store.Memory.Objects) :
    (o.list.run Store.Memory.answer s).1 =
      ((o.targets (Store.Memory.list s o.path)).run Store.Memory.answer s).1.map
        fun found => found.mergeSort := by
  have hends : o.list.Ends Store.Memory.answer s fun r _ => r =
      ((o.targets (Store.Memory.list s o.path)).run Store.Memory.answer s).1.map
        fun found => found.mergeSort := by
    refine ends_ask_bind rfl (Attempt.ends_bind.2 ?_)
    unfold Attempt.Ends
    cases ((o.targets (Store.Memory.list s o.path)).run Store.Memory.answer s).1 <;> rfl
  exact hends

theorem load_eq_ok {bytes : ByteArray} : ((o.load n).run Store.Memory.answer s).1 = .ok bytes ↔
    Target.isValid n ∧ s.get? (o.keyOf n Target.stateFile) = some bytes := by
  rw [load_run, document]
  by_cases hvalid : Target.isValid n
  · rw [key_of_isValid hvalid, and_iff_right hvalid]
    simp only [Except.bind]
    cases s.get? (o.keyOf n Target.stateFile) with
    | some b => simp
    | none => simp
  · rw [key, Target.check, if_neg hvalid]
    exact iff_of_false (fun h => by cases h) fun h => hvalid h.1

/-- Whatever stands before a slash in the keys below the path is a target. -/
def OnlyTargets (o : Objects) (s : Store.Memory.Objects) : Prop :=
  ∀ n key bytes, s.get? key = some bytes →
    Store.Memory.child? (Store.folderKey o.path) key = some ⟨n, .folder⟩ → Target.isValid n

theorem isExact_iff (path : String) (s : Store.Memory.Objects) :
    IsExact ((ofPath path).list.run Store.Memory.answer s).1
        (fun t => (((ofPath path).load t).run Store.Memory.answer s).1) ↔
      (ofPath path).OnlyTargets s := by
  obtain ⟨-, hok, hnames⟩ := (ofPath path).targets_ends s (Store.Memory.list s (ofPath path).path)
  rw [list_run]
  have honly : (ofPath path).OnlyTargets s ↔
      ∀ n, ⟨n, .folder⟩ ∈ Store.Memory.list s (ofPath path).path → Target.isValid n := by
    simp only [OnlyTargets, Store.Memory.folder_mem_list]
    exact ⟨fun h n ⟨key, bytes, hkey, hchild⟩ => h n key bytes hkey hchild,
      fun h n key bytes hkey hchild => h n ⟨key, bytes, hkey, hchild⟩⟩
  rw [honly]
  by_cases hall : ∀ n, ⟨n, .folder⟩ ∈ Store.Memory.list s (ofPath path).path → Target.isValid n
  · refine iff_of_true ?_ hall
    rw [hok hall]
    refine (isExact_filter (Store.Memory.names_list_sorted s _)).2 fun t => ?_
    simp only [List.mem_map, List.mem_filter, Bool.and_eq_true, decide_eq_true_eq]
    constructor
    · rintro ⟨⟨n, kind⟩, ⟨hline, rfl, hstored⟩, rfl⟩
      have hvalid := hall n hline
      obtain ⟨bytes, hbytes⟩ := Dict.contains_eq_true.1 hstored
      exact ⟨hvalid, bytes, load_eq_ok.2 ⟨hvalid, hbytes⟩⟩
    · rintro ⟨hvalid, bytes, hload⟩
      have hbytes := (load_eq_ok.1 hload).2
      have hchild := child?_keyOf (folderKey_ofPath path) hvalid Target.stateFile
      exact ⟨⟨t, .folder⟩, ⟨Store.Memory.folder_mem_list.2 ⟨_, bytes, hbytes, hchild⟩, rfl,
        Dict.contains_eq_true.2 ⟨bytes, hbytes⟩⟩, rfl⟩
  · refine iff_of_false (fun hexact => hall ?_) hall
    obtain ⟨targets, hlisting, -⟩ := hexact
    obtain ⟨found, hfound, -⟩ := Except.map_eq_ok.1 hlisting
    exact hnames found hfound

end Objects

/-! ## Places -/

namespace Place

/-- What is listed at a place is what can be loaded there. -/
def ListsExactly (p : Place) (s : p.State) : Prop :=
  IsExact (p.list s) (p.load s)

/-- Nothing at a place looks like a target without being one. A root without a name has no listing,
so nothing may be in it; a root that is not there is fine. -/
def OnlyTargets : (p : Place) → p.State → Prop
  | folder root, disk =>
    if root.shown = "" then ∀ t, Target.isValid t → ∀ bytes, root.readState disk t ≠ .ok bytes
    else match disk.folderAt? root.way with
      | .ok es => root.OnlyTargets disk es
      | .error fault => fault = .missing
  | objects path, stored => (Objects.ofPath path).OnlyTargets stored

/-- A listing is exact just if nothing looks like a target without being one. -/
theorem listsExactly_iff (p : Place) (s : p.State) : p.ListsExactly s ↔ p.OnlyTargets s := by
  cases p with
  | objects path => exact Objects.isExact_iff path s
  | folder root =>
    rw [OnlyTargets]
    split
    · next hshown =>
      have hlist : (folder root).list s = .ok [] := Folder.list_run_unnamed hshown
      rw [ListsExactly, hlist, isExact_nil]
      exact forall_congr' fun t => forall_congr' fun hvalid => forall_congr' fun bytes =>
        not_congr (Folder.load_eq_ok.trans (and_iff_right hvalid))
    · next hshown =>
      split
      · next es hes => exact Folder.isExact_of_folder hshown (Disk.Entry.folderAt?_eq_ok.1 hes)
      · next fault hfault => exact Folder.isExact_of_error hshown hfault

/-- A store with the document of a target and an object that is nobody's. -/
def strayObjects : Store.Memory.Objects :=
  (Dict.empty.insert "s/prod/main.tf.json" ByteArray.empty).insert "s/a\\b/other" ByteArray.empty

/-- A disk with the document of a target, and with a folder where another document would be. -/
def strayDisk : Disk.Entry :=
  .folder [("ok", .folder [("main.tf.json", .file ByteArray.empty)]),
    ("dir", .folder [("main.tf.json", .folder [])])]

/-- An object that is nobody's makes the listing fail; a folder in the place of a document is listed
as a document. -/
theorem listings_with_strays :
    (objects "s").load strayObjects "prod" = .ok ByteArray.empty ∧
      (objects "s").list strayObjects = .error (.invalidTarget "a\\b") ∧
      (folder ⟨[], "."⟩).list strayDisk = .ok ["dir", "ok"] ∧
      (folder ⟨[], "."⟩).load strayDisk "dir" = .error (.disk .isAFolder) := by
  have hobjects : (objects "s").list strayObjects = .error (.invalidTarget "a\\b") := by
    refine (Objects.list_run _ _).trans ?_
    rfl
  have hfolder : (folder ⟨[], "."⟩).list strayDisk = .ok ["dir", "ok"] := by
    refine (Folder.list_run (by decide) rfl).trans ?_
    change Except.ok (["dir", "ok"].mergeSort) = _
    rw [Dict.mergeSort_of_sorted (by decide)]
  exact ⟨rfl, hobjects, hfolder, rfl⟩

end Place

end ClusterLedger.Backend
