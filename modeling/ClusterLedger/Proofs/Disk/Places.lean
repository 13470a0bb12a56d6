import ClusterLedger.Disk
import ClusterLedger.Proofs.Dict

/-!
# Places on a disk

What stands at a place is seen as its shape: the bytes of a file, or a folder, or why there is
nothing. Which ways can be followed depends on the folders alone, and where they lead to on the ways
alone. The entries of one folder can be changed without any effect on what stands elsewhere.
-/
namespace ClusterLedger.Disk

/-- A name that leads down. -/
structure Plain (name : String) : Prop where
  not_up : name ≠ ".."
  not_here : ¬(name = "" ∨ name = ".")

theorem walk_of_plain {name : String} (h : Plain name) (here : List String) :
    walk here name = here ++ [name] := by
  rw [walk, if_neg h.not_up, if_neg h.not_here]

theorem placeOf_snoc (way : List String) (name : String) :
    placeOf (way ++ [name]) = walk (placeOf way) name := by
  rw [placeOf, List.foldl_append]
  rfl

theorem placeOf_of_plain {name : String} (h : Plain name) (way : List String) :
    placeOf (way ++ [name]) = placeOf way ++ [name] := by
  rw [placeOf_snoc, walk_of_plain h]

/-- A place ends in the name of its location. -/
theorem name_of_place {l l' : Location} (h : l.place = l'.place) : l.name = l'.name :=
  List.singleton_inj.1 (List.append_inj' h rfl).2

theorem eq_of_begins {p : List String} {m n : String} (h : p ++ [m] <+: p ++ [n]) : m = n := by
  have hsame := h.eq_of_length (by simp)
  simpa using hsame

theorem isName_iff {name : String} : isName name = true ↔ '\x00' ∉ name.toList ∧ '/' ∉ name.toList := by
  simp only [isName, List.all_eq_true, decide_eq_true_eq]
  constructor
  · exact fun h => ⟨fun hmem => (h _ hmem).1 rfl, fun hmem => (h _ hmem).2 rfl⟩
  · rintro ⟨hnul, hslash⟩ c hc
    exact ⟨fun he => hnul (he ▸ hc), fun he => hslash (he ▸ hc)⟩

namespace Entry

variable {root root' : Entry} {p q way : List String} {es : List (String × Entry)} {n : String}

/-! ## Shapes -/

/-- The bytes of a file. -/
def bytes? : Entry → Option ByteArray
  | file bytes => some bytes
  | folder _ => none

/-- What a place is: a file with its bytes, or a folder. -/
def shape? (root : Entry) (place : List String) : Except Fault (Option ByteArray) :=
  (root.at? place).map bytes?

/-- The bytes of the file at a place. -/
def file? (root : Entry) (place : List String) : Option ByteArray :=
  (root.at? place).toOption.bind bytes?

theorem shape?_eq_folder : root.shape? p = .ok none ↔ ∃ es, root.at? p = .ok (.folder es) := by
  rw [shape?]
  cases root.at? p with
  | error f => simp [Except.map]
  | ok e => cases e <;> simp [Except.map, bytes?]

theorem shape?_eq_file {b : ByteArray} : root.shape? p = .ok (some b) ↔ root.file? p = some b := by
  rw [shape?, file?]
  cases root.at? p with
  | error f => simp [Except.map, Except.toOption]
  | ok e => simp [Except.map, Except.toOption]

theorem file?_of_shape? (h : root'.shape? p = root.shape? q) : root'.file? p = root.file? q := by
  ext b
  rw [← shape?_eq_file, ← shape?_eq_file, h]

theorem at?_append (root : Entry) (p q : List String) :
    root.at? (p ++ q) = (root.at? p).bind fun e => e.at? q := by
  induction p generalizing root with
  | nil => cases q <;> cases root <;> rfl
  | cons m rest ih =>
    cases root with
    | file b => rfl
    | folder es =>
      rw [List.cons_append, at?, at?]
      cases Entries.get? m es with
      | none => rfl
      | some e => exact ih e

/-- What stands in a folder. -/
theorem at?_child (h : root.at? p = .ok (.folder es)) (n : String) :
    root.at? (p ++ [n]) = match Entries.get? n es with
      | some e => .ok e
      | none => .error .missing := by
  rw [at?_append, h]
  simp only [Except.bind, at?]
  cases Entries.get? n es with
  | none => rfl
  | some e => cases e <;> rfl

theorem at?_snoc_eq_ok {e : Entry} : root.at? (p ++ [n]) = .ok e ↔
    ∃ es, root.at? p = .ok (.folder es) ∧ Entries.get? n es = some e := by
  constructor
  · intro h
    rw [at?_append] at h
    cases hat : root.at? p with
    | error f =>
      rw [hat] at h
      cases h
    | ok entry =>
      cases entry with
      | file b =>
        rw [hat] at h
        cases h
      | folder es =>
        rw [← at?_append, at?_child hat] at h
        refine ⟨es, rfl, ?_⟩
        cases hget : Entries.get? n es with
        | none =>
          rw [hget] at h
          cases h
        | some e' =>
          rw [hget] at h
          exact congrArg some (Except.ok.inj h)
  · rintro ⟨es, hat, hget⟩
    rw [at?_child hat, hget]

theorem shape?_child (h : root.at? p = .ok (.folder es)) (n : String) :
    root.shape? (p ++ [n]) = match Entries.get? n es with
      | some e => .ok e.bytes?
      | none => .error .missing := by
  rw [shape?, at?_child h]
  cases Entries.get? n es <;> rfl

theorem file?_child (h : root.at? p = .ok (.folder es)) (n : String) :
    root.file? (p ++ [n]) = (Entries.get? n es).bind bytes? := by
  rw [file?, at?_child h]
  cases Entries.get? n es <;> rfl

theorem file?_append {e : Entry} (h : root.at? p = .ok e) (q : List String) :
    root.file? (p ++ q) = e.file? q := by
  rw [file?, file?, at?_append, h]
  rfl

/-! ## Following ways -/

/-- The same places are folders. -/
def SameFolders (root root' : Entry) : Prop :=
  ∀ place, root.shape? place = .ok none ↔ root'.shape? place = .ok none

theorem SameFolders.refl (root : Entry) : SameFolders root root :=
  fun _ => Iff.rfl

theorem SameFolders.trans {root'' : Entry} (h : SameFolders root root')
    (h' : SameFolders root' root'') : SameFolders root root'' :=
  fun place => (h place).trans (h' place)

theorem step?_eq_ok {here next : List String} (h : root.step? here n = .ok next) :
    root.shape? here = .ok none ∧ next = walk here n := by
  rw [step?] at h
  cases hat : root.at? here with
  | error f =>
    rw [hat] at h
    cases h
  | ok e =>
    rw [hat] at h
    cases e with
    | file b => cases h
    | folder es =>
      refine ⟨shape?_eq_folder.2 ⟨es, hat⟩, ?_⟩
      simp only at h
      rw [walk]
      split at h
      · next hup => rw [if_pos hup, Except.ok.inj h]
      · next hup =>
        rw [if_neg hup]
        split at h
        · next hhere => rw [if_pos hhere, Except.ok.inj h]
        · next hhere =>
          rw [if_neg hhere]
          split at h
          · cases h
          · exact (Except.ok.inj h).symm

theorem step?_congr {here : List String} (h : root.shape? here = .ok none)
    (h' : root'.shape? here = .ok none) : root.step? here n = root'.step? here n := by
  obtain ⟨es, hat⟩ := shape?_eq_folder.1 h
  obtain ⟨es', hat'⟩ := shape?_eq_folder.1 h'
  rw [step?, step?, hat, hat']

theorem foldlM_step?_eq_ok {here : List String} (h : way.foldlM root.step? here = .ok p) :
    p = way.foldl walk here := by
  induction way generalizing here with
  | nil => exact (Except.ok.inj h).symm
  | cons m rest ih =>
    rw [List.foldlM_cons] at h
    cases hstep : root.step? here m with
    | error f =>
      rw [hstep] at h
      cases h
    | ok next =>
      rw [hstep] at h
      rw [ih h, (step?_eq_ok hstep).2]
      rfl

/-- A way that can be followed can be followed where the folders are that it leads through. -/
theorem foldlM_step?_of_fronts {here : List String}
    (hfolders : ∀ front, front <+: way → root.shape? (front.foldl walk here) = .ok none →
      root'.shape? (front.foldl walk here) = .ok none)
    (h : way.foldlM root.step? here = .ok p) : way.foldlM root'.step? here = .ok p := by
  induction way generalizing here with
  | nil => exact h
  | cons m rest ih =>
    rw [List.foldlM_cons] at h ⊢
    cases hstep : root.step? here m with
    | error f =>
      rw [hstep] at h
      cases h
    | ok next =>
      rw [hstep] at h
      obtain ⟨hfolder, hnext⟩ := step?_eq_ok hstep
      rw [← step?_congr hfolder (hfolders [] List.nil_prefix hfolder), hstep]
      refine ih (fun front hfront => ?_) h
      rw [hnext]
      exact hfolders (m :: front) (List.cons_prefix_cons.2 ⟨rfl, hfront⟩)

/-- A way that cannot be followed at all is not a missing one. -/
theorem ne_missing_of_check {fault : Fault} (h : check way = .error fault) : fault ≠ .missing := by
  rw [check] at h
  split at h
  · cases h
    decide
  · split at h
    · cases h
      decide
    · cases h

theorem check_of_follow? (h : root.follow? way = .ok p) : check way = .ok () := by
  rw [follow?] at h
  cases hcheck : check way with
  | error f =>
    rw [hcheck] at h
    cases h
  | ok u => rfl

theorem follow?_of_check (h : check way = .ok ()) :
    root.follow? way = way.foldlM root.step? [] := by
  rw [follow?, h]

/-- Where a way leads to does not depend on the disk. -/
theorem follow?_eq_ok (h : root.follow? way = .ok p) : p = placeOf way := by
  rw [follow?_of_check (check_of_follow? h)] at h
  exact foldlM_step?_eq_ok h

theorem follow?_of_fronts (hfolders : ∀ front, front <+: way →
      root.shape? (placeOf front) = .ok none → root'.shape? (placeOf front) = .ok none)
    (h : root.follow? way = .ok p) : root'.follow? way = .ok p := by
  have hcheck := check_of_follow? h
  rw [follow?_of_check hcheck] at h ⊢
  exact foldlM_step?_of_fronts hfolders h

theorem follow?_of_folders (hfolders : ∀ place, root.shape? place = .ok none →
    root'.shape? place = .ok none) (h : root.follow? way = .ok p) : root'.follow? way = .ok p :=
  follow?_of_fronts (fun front _ => hfolders (placeOf front)) h

theorem follow?_of_sameFolders (hsame : SameFolders root root') (h : root.follow? way = .ok p) :
    root'.follow? way = .ok p :=
  follow?_of_folders (fun place => (hsame place).1) h

theorem wayLength_append (way rest : List String) :
    wayLength (way ++ rest) = wayLength way + wayLength rest := by
  induction way with
  | nil => rw [List.nil_append, wayLength, Nat.zero_add]
  | cons m way ih =>
    rw [List.cons_append, wayLength, wayLength, ih]
    omega

theorem check_of_names (h : ∀ m ∈ way, isName m = true) :
    check way = if wayLimit ≤ wayLength way then .error .nameTooLong else .ok () := by
  have hnames : ¬(way.any fun m => ¬isName m) = true := by
    simp only [List.any_eq_true, not_exists, not_and]
    exact fun m hm => by simp [h m hm]
  rw [check, if_neg hnames]

theorem isName_of_check {m : String} (h : check way = .ok ()) (hm : m ∈ way) :
    isName m = true := by
  rw [check] at h
  split at h
  · cases h
  next hnames =>
    simp only [List.any_eq_true, not_exists, not_and] at hnames
    simpa using hnames m hm

theorem check_of_append {rest : List String} (h : check (way ++ rest) = .ok ()) :
    check way = .ok () := by
  rw [check] at h ⊢
  split at h
  · cases h
  next hnames =>
    split at h
    · cases h
    next hlength =>
      rw [wayLength_append] at hlength
      rw [List.any_append, Bool.or_eq_true, not_or] at hnames
      rw [if_neg hnames.1, if_neg (by omega)]

/-! ## Ways to folders -/

/-- A way leads to a folder. -/
structure LeadsTo (root : Entry) (way : List String) (es : List (String × Entry)) : Prop where
  follow : root.follow? way = .ok (placeOf way)
  folder : root.at? (placeOf way) = .ok (.folder es)

theorem LeadsTo.shape (h : LeadsTo root way es) : root.shape? (placeOf way) = .ok none :=
  shape?_eq_folder.2 ⟨es, h.folder⟩

theorem LeadsTo.unique {es' : List (String × Entry)} (h : LeadsTo root way es)
    (h' : LeadsTo root way es') : es' = es := by
  have hat := h'.folder.symm.trans h.folder
  cases hat
  rfl

theorem LeadsTo.of_sameFolders (h : LeadsTo root way es) (hsame : SameFolders root root') :
    ∃ es', LeadsTo root' way es' := by
  obtain ⟨es', hat⟩ := shape?_eq_folder.1 ((hsame _).1 h.shape)
  exact ⟨es', follow?_of_sameFolders hsame h.follow, hat⟩

theorem LeadsTo.foldlM (h : LeadsTo root way es) :
    way.foldlM root.step? [] = .ok (placeOf way) := by
  rw [← follow?_of_check (check_of_follow? h.follow)]
  exact h.follow

/-- A way on which one more name can be followed leads to a folder. -/
theorem leadsTo_of_follow? {rest : List String} (h : root.follow? (way ++ rest) = .ok p)
    (hrest : rest ≠ []) : ∃ es, LeadsTo root way es := by
  obtain ⟨n, rest, rfl⟩ := List.exists_cons_of_ne_nil hrest
  have hcheck := check_of_follow? h
  rw [follow?_of_check hcheck, List.foldlM_append] at h
  cases hway : way.foldlM root.step? [] with
  | error f =>
    rw [hway] at h
    cases h
  | ok here =>
    rw [hway] at h
    have hplace := foldlM_step?_eq_ok hway
    subst hplace
    change ((n :: rest).foldlM root.step? (placeOf way)) = .ok p at h
    rw [List.foldlM_cons] at h
    cases hstep : root.step? (placeOf way) n with
    | error f =>
      rw [hstep] at h
      cases h
    | ok next =>
      obtain ⟨es, hat⟩ := shape?_eq_folder.1 (step?_eq_ok hstep).1
      refine ⟨es, ?_, hat⟩
      rw [follow?_of_check (check_of_append hcheck)]
      exact hway

/-- What a plain name leads to stands in the folder before. -/
theorem entry_of_find? {e : Entry} (hn : Plain n) (h : root.find? (way ++ [n]) = .ok e) :
    ∃ es, LeadsTo root way es ∧ Entries.get? n es = some e := by
  rw [find?] at h
  cases hfollow : root.follow? (way ++ [n]) with
  | error f =>
    rw [hfollow] at h
    cases h
  | ok place =>
    rw [hfollow, follow?_eq_ok hfollow, placeOf_of_plain hn] at h
    obtain ⟨es, hes⟩ := leadsTo_of_follow? hfollow (List.cons_ne_nil n [])
    refine ⟨es, hes, ?_⟩
    simp only [at?_child hes.folder] at h
    cases hget : Entries.get? n es with
    | none =>
      rw [hget] at h
      cases h
    | some e' =>
      rw [hget] at h
      exact congrArg some (Except.ok.inj h)

/-- A folder that a plain name leads to stands in the folder before. -/
theorem LeadsTo.parent {es' : List (String × Entry)} (h : LeadsTo root (way ++ [n]) es')
    (hn : Plain n) : ∃ es, LeadsTo root way es ∧ Entries.get? n es = some (.folder es') :=
  entry_of_find? hn (by rw [find?, h.follow]; exact h.folder)

theorem folderAt?_eq_ok : root.folderAt? way = .ok es ↔ LeadsTo root way es := by
  rw [folderAt?, find?]
  constructor
  · intro h
    cases hfollow : root.follow? way with
    | error f =>
      rw [hfollow] at h
      cases h
    | ok place =>
      rw [hfollow] at h
      have hplace := follow?_eq_ok hfollow
      subst hplace
      refine ⟨hfollow, ?_⟩
      dsimp only at h
      cases hat : root.at? (placeOf way) with
      | error f =>
        rw [hat] at h
        cases h
      | ok e =>
        rw [hat] at h
        cases e with
        | file b => cases h
        | folder es' =>
          cases h
          rfl
  · intro h
    rw [h.follow]
    simp only [h.folder]

/-- One more name behind a way to a folder can be followed if it is not too long. -/
theorem LeadsTo.follow?_snoc (h : LeadsTo root way es) (hn : Plain n)
    (hlimit : n.utf8ByteSize ≤ nameLimit) :
    root.follow? (way ++ [n]) = (check (way ++ [n])).map fun _ => placeOf way ++ [n] := by
  cases hcheck : check (way ++ [n]) with
  | error f =>
    rw [follow?, hcheck]
    rfl
  | ok u =>
    have hstep : root.step? (placeOf way) n = .ok (placeOf way ++ [n]) := by
      rw [step?, h.folder]
      simp only
      rw [if_neg hn.not_up, if_neg hn.not_here, if_neg (by omega)]
    rw [follow?_of_check hcheck, List.foldlM_append, h.foldlM]
    change [n].foldlM root.step? (placeOf way) = _
    rw [List.foldlM_cons, hstep]
    rfl

/-- What a look at a name shows, when there is no fault. -/
theorem look?_eq_ok {x : Option Entry} (hn : Plain n) (h : root.look? ⟨way, n⟩ = .ok x) :
    root.follow? (way ++ [n]) = .ok (placeOf way ++ [n]) ∧
      ∃ es, LeadsTo root way es ∧ x = Entries.get? n es := by
  rw [look?, Location.way] at h
  cases hfollow : root.follow? (way ++ [n]) with
  | error f =>
    rw [hfollow] at h
    cases h
  | ok place =>
    rw [hfollow] at h
    have hplace := follow?_eq_ok hfollow
    rw [placeOf_of_plain hn] at hplace
    subst hplace
    obtain ⟨es, hes⟩ := leadsTo_of_follow? hfollow (List.cons_ne_nil n [])
    refine ⟨rfl, es, hes, ?_⟩
    simp only [at?_child hes.folder] at h
    cases hget : Entries.get? n es with
    | none =>
      rw [hget] at h
      exact (Except.ok.inj h).symm
    | some e =>
      rw [hget] at h
      exact (Except.ok.inj h).symm

theorem LeadsTo.look? (h : LeadsTo root way es) (hn : Plain n)
    (hlimit : n.utf8ByteSize ≤ nameLimit) :
    root.look? ⟨way, n⟩ = (check (way ++ [n])).map fun _ => Entries.get? n es := by
  rw [Entry.look?, Location.way, h.follow?_snoc hn hlimit]
  cases check (way ++ [n]) with
  | error f => rfl
  | ok u =>
    simp only [Except.map, at?_child h.folder]
    cases Entries.get? n es <;> rfl

theorem LeadsTo.step?_of_long (h : LeadsTo root way es) (hn : Plain n)
    (hlong : nameLimit < n.utf8ByteSize) : root.step? (placeOf way) n = .error .nameTooLong := by
  rw [step?, h.folder]
  simp only
  rw [if_neg hn.not_up, if_neg hn.not_here, if_pos hlong]

/-- Nothing is found in a folder whose name is too long. -/
theorem LeadsTo.look?_of_long {m : String} (h : LeadsTo root way es) (hn : Plain n)
    (hlong : nameLimit < n.utf8ByteSize) (hcheck : check (way ++ [n] ++ [m]) = .ok ()) :
    root.look? ⟨way ++ [n], m⟩ = .error .nameTooLong := by
  have hstep := h.step?_of_long hn hlong
  have hfollow : root.follow? (way ++ [n] ++ [m]) = .error .nameTooLong := by
    rw [follow?_of_check hcheck, List.append_assoc, List.foldlM_append, h.foldlM]
    change [n, m].foldlM root.step? (placeOf way) = _
    rw [List.foldlM_cons, hstep]
    rfl
  rw [Entry.look?, Location.way, hfollow]

/-! ## Changing a folder -/

variable {f : List (String × Entry) → List (String × Entry)}

theorem LeadsTo.changeAt_eq (h : LeadsTo root way es)
    (f : List (String × Entry) → List (String × Entry)) :
    root.changeAt way f = root.change f (placeOf way) := by
  rw [changeAt, h.follow]

theorem at?_change (h : root.at? p = .ok (.folder es)) :
    (root.change f p).at? p = .ok (.folder (f es)) := by
  induction p generalizing root with
  | nil =>
    cases h
    rfl
  | cons m rest ih =>
    cases root with
    | file b => cases h
    | folder es' =>
      rw [at?] at h
      rw [change]
      cases hget : Entries.get? m es' with
      | none =>
        rw [hget] at h
        cases h
      | some e =>
        rw [hget] at h
        simp only [at?, Entries.get?_insert, if_true]
        exact ih h

/-- An entry of which the folder, if it is one, has been changed. -/
def onFolder (f : List (String × Entry) → List (String × Entry)) : Entry → Entry
  | folder entries => folder (f entries)
  | file bytes => file bytes

theorem at?_change_self (f : List (String × Entry) → List (String × Entry)) (root : Entry)
    (p : List String) : (root.change f p).at? p = (root.at? p).map (onFolder f) := by
  induction p generalizing root with
  | nil => cases root <;> rfl
  | cons m rest ih =>
    cases root with
    | file b => rfl
    | folder entries =>
      rw [change, at?]
      cases hget : Entries.get? m entries with
      | none =>
        rw [at?, hget]
        rfl
      | some e =>
        rw [at?, Entries.get?_insert, if_pos rfl]
        exact ih e

/-- Under a name that a change leaves alone there is what was there. -/
theorem at?_change_below (hf : ∀ es, Entries.get? n (f es) = Entries.get? n es)
    (rest : List String) : (root.change f p).at? (p ++ n :: rest) = root.at? (p ++ n :: rest) := by
  rw [at?_append, at?_append, at?_change_self]
  cases root.at? p with
  | error fault => rfl
  | ok e =>
    cases e with
    | file b => rfl
    | folder entries =>
      show (folder (f entries)).at? (n :: rest) = (folder entries).at? (n :: rest)
      rw [at?, at?, hf]

/-- A change of a folder is seen only in it. -/
theorem shape?_change (hq : ∀ m rest, q ≠ p ++ m :: rest) :
    (root.change f p).shape? q = root.shape? q := by
  induction p generalizing root q with
  | nil =>
    cases root with
    | file b => rfl
    | folder es =>
      cases q with
      | nil => rfl
      | cons m rest => exact absurd rfl (hq m rest)
  | cons m rest ih =>
    cases root with
    | file b => rfl
    | folder es =>
      rw [change]
      cases hget : Entries.get? m es with
      | none => rfl
      | some e =>
        cases q with
        | nil => rfl
        | cons m' q =>
          rw [shape?, shape?, at?, at?, Entries.get?_insert]
          by_cases hm : m = m'
          · subst hm
            rw [if_pos rfl, hget]
            exact ih fun m' rest' he => hq m' rest' (congrArg (m :: ·) he)
          · rw [if_neg hm]

/-- A change under one name is not seen where this name is not on the way. -/
theorem shape?_change_apart (hf : ∀ es m, m ≠ n → Entries.get? m (f es) = Entries.get? m es)
    (hq : ¬p ++ [n] <+: q) : (root.change f p).shape? q = root.shape? q := by
  by_cases hbelow : ∃ m rest, q = p ++ m :: rest
  · obtain ⟨m, rest, rfl⟩ := hbelow
    have hm : m ≠ n := by
      rintro rfl
      exact hq ⟨rest, by simp⟩
    rw [shape?, shape?, at?_change_below fun es => hf es m hm]
  · exact shape?_change fun m rest he => hbelow ⟨m, rest, he⟩

/-- What a change of a folder keeps, if an entry of a folder can be replaced by one that keeps it. -/
theorem change_keeps {K : Entry → Entry → Prop}
    (hfolder : ∀ es m e e', Entries.get? m es = some e → K e e' →
      K (.folder es) (.folder (Entries.insert m e' es)))
    (h : root.at? p = .ok (.folder es)) (hf : K (.folder es) (.folder (f es))) :
    K root (root.change f p) := by
  induction p generalizing root with
  | nil =>
    cases h
    exact hf
  | cons m rest ih =>
    cases root with
    | file b => cases h
    | folder es' =>
      rw [at?] at h
      rw [change]
      cases hget : Entries.get? m es' with
      | none =>
        rw [hget] at h
        cases h
      | some e =>
        rw [hget] at h
        exact hfolder es' m e _ hget (ih h)

theorem shape?_cons_eq_folder {m : String} :
    (Entry.folder es).shape? (m :: q) = .ok none ↔
      ∃ e, Entries.get? m es = some e ∧ e.shape? q = .ok none := by
  rw [shape?, at?]
  cases Entries.get? m es with
  | none => exact iff_of_false nofun nofun
  | some e => exact ⟨fun h => ⟨e, rfl, h⟩, fun ⟨e', he, h⟩ => Option.some.inj he ▸ h⟩

theorem file?_cons (es : List (String × Entry)) (m : String) (q : List String) :
    (Entry.folder es).file? (m :: q) = (Entries.get? m es).bind fun e => e.file? q := by
  rw [file?, at?]
  cases Entries.get? m es <;> rfl

theorem shape?_file_ne_folder (b : ByteArray) (q : List String) :
    (Entry.file b).shape? q ≠ .ok none := by
  cases q <;> exact nofun

/-- No folder has the name. -/
def NoFolder (n : String) (es : List (String × Entry)) : Prop :=
  ∀ e, Entries.get? n es = some e → ∃ b, e = .file b

theorem sameFolders_insert {es : List (String × Entry)} {m : String} {e e' : Entry}
    (hget : Entries.get? m es = some e) (h : SameFolders e e') :
    SameFolders (.folder es) (.folder (Entries.insert m e' es)) := by
  intro place
  cases place with
  | nil => exact ⟨fun _ => rfl, fun _ => rfl⟩
  | cons m' q =>
    rw [shape?_cons_eq_folder, shape?_cons_eq_folder, Entries.get?_insert]
    by_cases hm : m = m'
    · subst hm
      rw [if_pos rfl, hget]
      simp only [Option.some.injEq, exists_eq_left']
      exact h q
    · rw [if_neg hm]

/-- Entries that are not folders do not matter to which places are folders. -/
theorem sameFolders_of_noFolder {es' : List (String × Entry)} (hn : NoFolder n es)
    (hn' : NoFolder n es') (h : ∀ m, m ≠ n → Entries.get? m es' = Entries.get? m es) :
    SameFolders (.folder es) (.folder es') := by
  have hnone {es : List (String × Entry)} (hn : NoFolder n es) (q : List String) :
      ¬∃ e, Entries.get? n es = some e ∧ e.shape? q = .ok none := by
    rintro ⟨e, he, hq⟩
    obtain ⟨b, rfl⟩ := hn e he
    exact shape?_file_ne_folder b q hq
  intro place
  cases place with
  | nil => exact ⟨fun _ => rfl, fun _ => rfl⟩
  | cons m q =>
    rw [shape?_cons_eq_folder, shape?_cons_eq_folder]
    by_cases hm : m = n
    · subst hm
      exact iff_of_false (hnone hn q) (hnone hn' q)
    · rw [h m hm]

/-- The files in a folder are what they were but for the one whose entry is another one, if there is
no folder under its name. -/
theorem file?_of_noFolder {es' : List (String × Entry)} (hn : NoFolder n es) (hn' : NoFolder n es')
    (h : ∀ m, m ≠ n → Entries.get? m es' = Entries.get? m es) {m : String}
    (hq : m :: q ≠ [n]) : (Entry.folder es').file? (m :: q) = (Entry.folder es).file? (m :: q) := by
  have hnone {es : List (String × Entry)} (hn : NoFolder n es) (k : String) (rest : List String) :
      (Entry.folder es).file? (n :: k :: rest) = none := by
    rw [file?_cons]
    cases hget : Entries.get? n es with
    | none => rfl
    | some e =>
      obtain ⟨b, rfl⟩ := hn e hget
      rfl
  by_cases hm : m = n
  · subst hm
    cases q with
    | nil => exact absurd rfl hq
    | cons k rest => rw [hnone hn, hnone hn']
  · rw [file?_cons, file?_cons, h m hm]

section

variable (hn : NoFolder n es) (hn' : NoFolder n (f es))
  (hf : ∀ m, m ≠ n → Entries.get? m (f es) = Entries.get? m es)
include hn hn' hf

theorem sameFolders_change (h : root.at? p = .ok (.folder es)) :
    SameFolders root (root.change f p) :=
  change_keeps (fun _ _ _ _ => sameFolders_insert) h (sameFolders_of_noFolder hn hn' hf)

theorem file?_change (h : root.at? p = .ok (.folder es)) (hq : q ≠ p ++ [n]) :
    (root.change f p).file? q = root.file? q := by
  by_cases hbelow : ∃ m rest, q = p ++ m :: rest
  · obtain ⟨m, rest, rfl⟩ := hbelow
    rw [file?_append (at?_change h), file?_append h]
    exact file?_of_noFolder hn hn' hf fun he => hq (congrArg (p ++ ·) he)
  · exact file?_of_shape? (shape?_change fun m rest he => hbelow ⟨m, rest, he⟩)

/-- What a change of the entries under one name does to the folder of a way. -/
theorem LeadsTo.changeAt (h : LeadsTo root way es) :
    SameFolders root (root.changeAt way f) ∧ LeadsTo (root.changeAt way f) way (f es) := by
  have hsame : SameFolders root (root.changeAt way f) := by
    rw [h.changeAt_eq]
    exact sameFolders_change hn hn' hf h.folder
  refine ⟨hsame, follow?_of_sameFolders hsame h.follow, ?_⟩
  rw [h.changeAt_eq]
  exact at?_change h.folder

end

theorem changeAt_cases (root : Entry) (way : List String)
    (f : List (String × Entry) → List (String × Entry)) :
    root.changeAt way f = root ∨ root.changeAt way f = root.change f (placeOf way) := by
  rw [changeAt]
  cases hfollow : root.follow? way with
  | error fault => exact .inl rfl
  | ok place =>
    rw [follow?_eq_ok hfollow]
    exact .inr rfl

end Entry

end ClusterLedger.Disk
