import ClusterLedger.Proofs.Disk.Effects

/-!
# Folders beside each other

What requests about one folder in a root are answered, and what they leave, depends on what stands
in its place and on nothing else, as long as the way to the root leads to a folder, or leads down all
the way with names that are not too long. Requests about another folder in the root keep that place
as it is. So the two do not notice each other.
-/
namespace ClusterLedger.Disk

open Entry (LeadsTo)

variable {root root' disk disk' : Entry} {way names : List String} {t u n : String} {r : Request}
  {f : List (String × Entry) → List (String × Entry)}

/-! ## Ways past a folder -/

/-- No name on a way leads up, and none is too long. -/
def Descends (way : List String) : Prop :=
  ∀ n ∈ way, n ≠ ".." ∧ n.utf8ByteSize ≤ nameLimit

instance (way : List String) : Decidable (Descends way) :=
  inferInstanceAs (Decidable (∀ n ∈ way, n ≠ ".." ∧ n.utf8ByteSize ≤ nameLimit))

/-- What is found of a folder in a root depends on its place alone: the way does not lead through
the root, and it leads to a folder or down all the way. -/
structure Settled (way : List String) (t : String) (disk : Entry) : Prop where
  outside : Outside way
  passable : (∃ es, LeadsTo disk way es) ∨ Descends (way ++ [t])

theorem Settled.of_folders (h : Settled way t disk)
    (hkept : ∀ place, (∀ n rest, place ≠ placeOf way ++ n :: rest) →
      disk.shape? place = .ok none → disk'.shape? place = .ok none) : Settled way t disk' := by
  refine ⟨h.outside, ?_⟩
  rcases h.passable with ⟨es, hes⟩ | hdescends
  · have hfollow : disk'.follow? way = .ok (placeOf way) :=
      Entry.follow?_of_fronts (fun front hfront => hkept _ (h.outside front hfront)) hes.follow
    obtain ⟨es', hat⟩ := Entry.shape?_eq_folder.1
      (hkept (placeOf way) (h.outside way (List.prefix_refl way)) hes.shape)
    exact .inl ⟨es', hfollow, hat⟩
  · exact .inr hdescends

theorem Settled.of_frame (h : Settled way t disk) (hframe : Frame way u names disk disk') :
    Settled way t disk' := by
  refine h.of_folders fun place hplace hfolder => ?_
  rcases hframe.reached place with hsame | hreached
  · rw [hsame, hfolder]
  · cases hreached with
    | @file n hn hbelow =>
      obtain ⟨rest, hrest⟩ := hbelow
      exact absurd (by rw [← hrest]; simp) (hplace u (n :: rest))
    | made _ _ hmade => cases hfolder.symm.trans hmade.before
    | removed hat _ _ => exact absurd hat (hplace u [])

/-! ## What stands in the place of a folder -/

theorem walk_prefix {here : List String} (hway : ∀ n ∈ way, n ≠ "..") :
    here <+: way.foldl walk here := by
  induction way generalizing here with
  | nil => exact List.prefix_refl here
  | cons m rest ih =>
    have hstep : here <+: walk here m := by
      rw [walk, if_neg (hway m List.mem_cons_self)]
      split
      · exact List.prefix_refl here
      · exact List.prefix_append here [m]
    exact hstep.trans (ih fun n hn => hway n (List.mem_cons_of_mem _ hn))

/-- A way that leads down leads past no folder that it leads to. -/
theorem outside_of_descends (h : ∀ n ∈ way, n ≠ "..") : Outside way := by
  rintro front ⟨rest, rfl⟩ n more he
  have hbegins : placeOf front <+: placeOf (front ++ rest) := by
    rw [placeOf, placeOf, List.foldl_append]
    exact walk_prefix fun m hm => h m (List.mem_append_right _ hm)
  have hlength := hbegins.length_le
  rw [he, List.length_append, List.length_cons] at hlength
  omega

/-- What is found at the end of names, the last of them plain, from a place on. -/
def findFrom (root : Entry) (here names : List String) : Except Fault Entry :=
  (names.foldlM root.step? here).bind root.at?

theorem find?_of_check (h : Entry.check way = .ok ()) : root.find? way = findFrom root [] way := by
  rw [Entry.find?, Entry.follow?_of_check h, findFrom]
  cases way.foldlM root.step? [] <;> rfl

theorem findFrom_cons (root : Entry) (here : List String) (m : String) (rest : List String) :
    findFrom root here (m :: rest) =
      (root.step? here m).bind fun next => findFrom root next rest := by
  rw [findFrom, List.foldlM_cons]
  cases root.step? here m <;> rfl

theorem at?_append_of_error {p : List String} {fault : Fault} (h : root.at? p = .error fault)
    (rest : List String) : root.at? (p ++ rest) = .error fault := by
  rw [Entry.at?_append, h]
  rfl

theorem at?_append_of_file {p : List String} {bytes : ByteArray}
    (h : root.at? p = .ok (.file bytes)) (m : String) (rest : List String) :
    root.at? (p ++ m :: rest) = .error .notAFolder := by
  rw [Entry.at?_append, h]
  rfl

theorem step?_of_folder {here : List String} {es : List (String × Entry)}
    (hat : root.at? here = .ok (.folder es)) (hup : n ≠ "..") (hsize : n.utf8ByteSize ≤ nameLimit) :
    root.step? here n = .ok (walk here n) := by
  rw [Entry.step?, hat, walk]
  simp only [if_neg hup]
  split
  · rfl
  · rw [if_neg (by omega)]

/-- On a way down nothing but the place at its end matters. -/
theorem findFrom_descends {here : List String} (hway : Descends way) (ht : Plain t)
    (hlimit : t.utf8ByteSize ≤ nameLimit) :
    findFrom root here (way ++ [t]) = root.at? (way.foldl walk here ++ [t]) := by
  induction way generalizing here with
  | nil =>
    rw [List.nil_append, findFrom_cons, Entry.step?, List.foldl_nil]
    cases hat : root.at? here with
    | error fault => rw [at?_append_of_error hat]; rfl
    | ok e =>
      cases e with
      | file b => rw [at?_append_of_file hat]; rfl
      | folder es =>
        simp only
        rw [if_neg ht.not_up, if_neg ht.not_here, if_neg (by omega)]
        rfl
  | cons m rest ih =>
    obtain ⟨hup, hsize⟩ := hway m List.mem_cons_self
    have hrest : Descends rest := fun n hn => hway n (List.mem_cons_of_mem _ hn)
    have hbelow : here <+: (m :: rest).foldl walk here := walk_prefix fun n hn => (hway n hn).1
    obtain ⟨more, hmore⟩ := hbelow
    rw [List.foldl_cons] at hmore
    rw [List.cons_append, findFrom_cons, List.foldl_cons]
    -- Where a step fails, the place at the end is missing for the same reason.
    cases hat : root.at? here with
    | error fault =>
      rw [Entry.step?, hat, ← hmore, List.append_assoc, at?_append_of_error hat]
      rfl
    | ok e =>
      cases e with
      | file b =>
        rw [Entry.step?, hat, ← hmore, List.append_assoc]
        cases more with
        | nil => rw [List.nil_append, at?_append_of_file hat]; rfl
        | cons m' more => rw [List.cons_append, at?_append_of_file hat]; rfl
      | folder es =>
        rw [step?_of_folder hat hup hsize]
        exact ih hrest

/-- What can be found in a place, if the way to it is not too long. -/
def gate (way : List String) (t : String) (found : Except Fault Entry) : Except Fault Entry :=
  match Entry.check (way ++ [t]) with
  | .error fault => .error fault
  | .ok () => if nameLimit < t.utf8ByteSize then .error .nameTooLong else found

theorem Settled.find? (h : Settled way t disk) (ht : Plain t) :
    disk.find? (way ++ [t]) = gate way t (disk.at? (placeOf way ++ [t])) := by
  rw [gate]
  cases hcheck : Entry.check (way ++ [t]) with
  | error fault =>
    rw [Entry.find?, Entry.follow?, hcheck]
  | ok u =>
    rw [find?_of_check hcheck]
    rcases h.passable with ⟨es, hes⟩ | hdescends
    · have hsplit : findFrom disk [] (way ++ [t]) = findFrom disk (placeOf way) [t] := by
        rw [findFrom, List.foldlM_append, hes.foldlM]
        rfl
      rw [hsplit, findFrom_cons, Entry.step?, hes.folder]
      simp only
      rw [if_neg ht.not_up, if_neg ht.not_here]
      split <;> rfl
    · have hlimit : t.utf8ByteSize ≤ nameLimit := (hdescends t (by simp)).2
      rw [findFrom_descends (fun n hn => hdescends n (List.mem_append_left _ hn)) ht hlimit,
        if_neg (by omega)]
      rfl

/-! ## What depends on what is found -/

/-- What a location names depends on the folder that the way leads to. -/
theorem look?_eq (hn : Plain n) (root : Entry) (way : List String) :
    root.look? ⟨way, n⟩ = (Entry.check (way ++ [n])).bind fun _ => (root.folderAt? way).bind fun es =>
      if nameLimit < n.utf8ByteSize then .error .nameTooLong else .ok (Entries.get? n es) := by
  cases hcheck : Entry.check (way ++ [n]) with
  | error fault =>
    rw [Entry.look?, Location.way, Entry.follow?, hcheck]
    rfl
  | ok u =>
    have hway := Entry.check_of_append hcheck
    have hsnoc : root.follow? (way ++ [n]) = (root.follow? way).bind fun p => root.step? p n := by
      rw [Entry.follow?_of_check hcheck, Entry.follow?_of_check hway, List.foldlM_append]
      cases way.foldlM root.step? [] with
      | error fault => rfl
      | ok p =>
        change [n].foldlM root.step? p = root.step? p n
        rw [List.foldlM_cons]
        cases root.step? p n <;> rfl
    rw [Entry.look?, Location.way, hsnoc, Entry.folderAt?, Entry.find?]
    cases root.follow? way with
    | error fault => rfl
    | ok p =>
      simp only [Except.bind, Entry.step?]
      cases hat : root.at? p with
      | error fault => rfl
      | ok e =>
        cases e with
        | file b => rfl
        | folder es =>
          simp only
          rw [if_neg hn.not_up, if_neg hn.not_here]
          by_cases hlong : nameLimit < n.utf8ByteSize
          · simp only [if_pos hlong]
          · simp only [if_neg hlong, Entry.at?_child hat]
            cases Entries.get? n es <;> rfl

theorem look?_congr (hn : Plain n) (h : disk'.find? way = disk.find? way) :
    disk'.look? ⟨way, n⟩ = disk.look? ⟨way, n⟩ := by
  rw [look?_eq hn, look?_eq hn, Entry.folderAt?, Entry.folderAt?, h]

theorem at?_changeAt_self (f : List (String × Entry) → List (String × Entry)) (root : Entry)
    (way : List String) : (root.changeAt way f).at? (placeOf way) = match root.find? way with
      | .ok e => .ok (e.onFolder f)
      | .error _ => root.at? (placeOf way) := by
  rw [Entry.changeAt, Entry.find?]
  cases hfollow : root.follow? way with
  | error fault => rfl
  | ok p =>
    rw [← Entry.follow?_eq_ok hfollow]
    simp only [Entry.at?_change_self]
    cases hat : root.at? p with
    | error fault => rfl
    | ok e => rfl

theorem removeFolder_eq (root : Entry) (l : Location) :
    removeFolder root l = match root.find? l.way with
      | .ok (.folder []) => .ok (root.take l)
      | .ok (.folder (_ :: _)) => .error .notEmpty
      | .ok (.file _) => .error .notAFolder
      | .error fault => .error fault := by
  rw [removeFolder, Entry.look?, Entry.find?]
  cases root.follow? l.way with
  | error fault => rfl
  | ok p =>
    cases hat : root.at? p with
    | error fault => cases fault <;> simp only [hat]
    | ok e =>
      cases e with
      | file b => simp only [hat]
      | folder es => cases es <;> simp only [hat]

/-- What comes of making a folder, by what is found in its place. -/
def makeReply : Except Fault Entry → Except Fault Unit
  | .ok (.folder _) | .error .missing => .ok ()
  | .ok (.file _) => .error .alreadyThere
  | .error fault => .error fault

/-- What is in the place of a folder when it has been made. -/
def makeFound : Except Fault Entry → Except Fault Entry
  | .error .missing => .ok (.folder [])
  | found => found

theorem missing_of_walk {here : List String} {es : List (String × Entry)} {fault : Fault}
    (hat : root.at? here = .ok (.folder es)) (hup : n ≠ "..")
    (hnext : root.at? (walk here n) = .error fault) : root.at? (walk here n) = .error .missing := by
  rw [walk, if_neg hup] at hnext ⊢
  split at hnext
  · cases hat.symm.trans hnext
  · next hhere =>
    rw [if_neg hhere, Entry.at?_child hat] at *
    cases hget : Entries.get? n es with
    | none => rfl
    | some e =>
      rw [hget] at hnext
      cases hnext

theorem growFrom_last {here : List String} {es : List (String × Entry)}
    (hat : root.at? here = .ok (.folder es)) (ht : Plain t) (hsize : t.utf8ByteSize ≤ nameLimit) :
    (root.growFrom here [t]).1 = makeReply (root.at? (here ++ [t])) ∧
      (root.growFrom here [t]).2.at? (here ++ [t]) = makeFound (root.at? (here ++ [t])) := by
  have hstep := step?_of_folder hat ht.not_up hsize
  rw [walk_of_plain ht] at hstep
  rw [Entry.growFrom, hstep]
  have hchild := Entry.at?_child hat t
  cases hget : Entries.get? t es with
  | none =>
    rw [hget] at hchild
    have hmade := Entry.at?_child (Entry.at?_change hat (f := Entries.insert t (.folder []))) t
    rw [Entries.get?_insert, if_pos rfl] at hmade
    simp only [hchild, Entry.growFrom, hmade]
    exact ⟨rfl, rfl⟩
  | some e =>
    rw [hget] at hchild
    simp only [hchild, Entry.growFrom]
    cases e <;> exact ⟨rfl, rfl⟩

theorem growFrom_file {here : List String} {bytes : ByteArray}
    (hat : root.at? here = .ok (.file bytes)) (hway : Descends way) (t : String) :
    root.growFrom here (way ++ [t]) = (.error .notAFolder, root) ∧
      root.at? (way.foldl walk here ++ [t]) = .error .notAFolder := by
  obtain ⟨m, rest, hnames⟩ : ∃ m rest, way ++ [t] = m :: rest := by
    cases way <;> exact ⟨_, _, rfl⟩
  obtain ⟨more, hmore⟩ : here <+: way.foldl walk here := walk_prefix fun n hn => (hway n hn).1
  constructor
  · simp only [hnames, Entry.growFrom, Entry.step?, hat]
  · rw [← hmore, List.append_assoc]
    cases more with
    | nil => exact at?_append_of_file hat t []
    | cons m' more => exact at?_append_of_file hat m' (more ++ [t])

/-- On a way down all folders can be made that are missing, unless a file is in the way. -/
theorem growFrom_descends {here : List String} {e : Entry} (hat : root.at? here = .ok e)
    (hway : Descends way) (ht : Plain t) (hsize : t.utf8ByteSize ≤ nameLimit) :
    (root.growFrom here (way ++ [t])).1 = makeReply (root.at? (way.foldl walk here ++ [t])) ∧
      (root.growFrom here (way ++ [t])).2.at? (way.foldl walk here ++ [t]) =
        makeFound (root.at? (way.foldl walk here ++ [t])) := by
  induction way generalizing here root e with
  | nil =>
    cases e with
    | file b =>
      obtain ⟨hgrow, hfound⟩ := growFrom_file hat hway t
      rw [hgrow, hfound]
      exact ⟨rfl, rfl⟩
    | folder es => exact growFrom_last hat ht hsize
  | cons m rest ih =>
    cases e with
    | file b =>
      obtain ⟨hgrow, hfound⟩ := growFrom_file hat hway t
      rw [hgrow, hfound]
      exact ⟨rfl, rfl⟩
    | folder es =>
      obtain ⟨hup, hlength⟩ := hway m List.mem_cons_self
      have hrest : Descends rest := fun n hn => hway n (List.mem_cons_of_mem _ hn)
      have hstep := step?_of_folder hat hup hlength
      rw [List.cons_append, Entry.growFrom, hstep, List.foldl_cons]
      cases hnext : root.at? (walk here m) with
      | ok e =>
        simp only [hnext]
        exact ih hnext hrest
      | error fault =>
        have hmissing := missing_of_walk hat hup hnext
        obtain ⟨hnew, es', hat', -⟩ := new_of_step? hstep hmissing
        -- In the folder that is made here there is nothing yet.
        have hmade := Entry.at?_child (Entry.at?_change hat' (f := Entries.insert m (.folder []))) m
        rw [Entries.get?_insert, if_pos rfl, ← hnew] at hmade
        obtain ⟨more, hmore⟩ : walk here m <+: rest.foldl walk (walk here m) :=
          walk_prefix fun n hn => (hrest n hn).1
        have hbefore := at?_append_of_error hmissing (more ++ [t])
        have hafter : (root.change (Entries.insert m (.folder [])) here).at?
            (walk here m ++ (more ++ [t])) = .error .missing := by
          rw [Entry.at?_append, hmade]
          cases more <;> rfl
        have hlater := ih hmade hrest
        rw [← hmore, List.append_assoc] at hlater ⊢
        rw [hafter] at hlater
        simp only [hmissing, hbefore]
        exact hlater

/-- What comes of making a folder, and what is in its place then, depends on what is found there. -/
theorem Settled.grow (h : Settled way t disk) (ht : Plain t) :
    (disk.grow (way ++ [t])).1 = makeReply (disk.find? (way ++ [t])) ∧
      (disk.grow (way ++ [t])).2.at? (placeOf way ++ [t]) =
        match disk.find? (way ++ [t]) with
        | .error .missing => .ok (.folder [])
        | _ => disk.at? (placeOf way ++ [t]) := by
  rw [h.find? ht, gate, Entry.grow]
  cases hcheck : Entry.check (way ++ [t]) with
  | error fault =>
    have hne := Entry.ne_missing_of_check hcheck
    cases fault <;> first | exact ⟨rfl, rfl⟩ | exact absurd rfl hne
  | ok u =>
    simp only
    split
    · next hlong =>
      rcases h.passable with ⟨es, hes⟩ | hdescends
      · have hgrow : disk.growFrom [] (way ++ [t]) = (.error .nameTooLong, disk) := by
          rw [growFrom_append [t] hes.foldlM hes.folder, Entry.growFrom, Entry.step?, hes.folder]
          simp only
          rw [if_neg ht.not_up, if_neg ht.not_here, if_pos hlong]
        rw [hgrow]
        exact ⟨rfl, rfl⟩
      · exact absurd (hdescends t (by simp)).2 (Nat.not_le.2 hlong)
    · next hshort =>
      have hsize : t.utf8ByteSize ≤ nameLimit := Nat.le_of_not_lt hshort
      have hgrown : (disk.growFrom [] (way ++ [t])).1 = makeReply (disk.at? (placeOf way ++ [t])) ∧
          (disk.growFrom [] (way ++ [t])).2.at? (placeOf way ++ [t]) =
            makeFound (disk.at? (placeOf way ++ [t])) := by
        rcases h.passable with ⟨es, hes⟩ | hdescends
        · rw [growFrom_append [t] hes.foldlM hes.folder]
          exact growFrom_last hes.folder ht hsize
        · have hway : Descends way := fun n hn => hdescends n (List.mem_append_left _ hn)
          have hat : disk.at? [] = .ok disk := by rfl
          exact growFrom_descends hat hway ht hsize
      refine ⟨hgrown.1, hgrown.2.trans ?_⟩
      cases disk.at? (placeOf way ++ [t]) with
      | ok e => rfl
      | error fault => cases fault <;> rfl

/-! ## Two disks with the same folder -/

/-- On two disks the same stands in the place of a folder, and that is all that matters. -/
structure Alike (way : List String) (t : String) (disk disk' : Entry) : Prop where
  settled : Settled way t disk
  settled' : Settled way t disk'
  same : disk'.at? (placeOf way ++ [t]) = disk.at? (placeOf way ++ [t])

theorem Alike.trans {disk'' : Entry} (h : Alike way t disk disk') (h' : Alike way t disk' disk'') :
    Alike way t disk disk'' :=
  ⟨h.settled, h'.settled', h'.same.trans h.same⟩

/-- Two results are the same fault, or the disks are alike. -/
def AlikeResults (way : List String) (t : String) (x x' : Except Fault Entry) : Prop :=
  (∃ fault, x = .error fault ∧ x' = .error fault) ∨
    ∃ next next', x = .ok next ∧ x' = .ok next' ∧ Alike way t next next'

theorem alike_settle (h : Alike way t disk disk') {x x' : Except Fault Entry}
    (hx : AlikeResults way t x x') : (settle disk' x').1 = (settle disk x).1 ∧
      Alike way t (settle disk x).2 (settle disk' x').2 := by
  rcases hx with ⟨fault, rfl, rfl⟩ | ⟨next, next', rfl, rfl, halike⟩
  · exact ⟨rfl, h⟩
  · exact ⟨rfl, halike⟩

section

variable (ht : Plain t) (h : Alike way t disk disk')
include ht h

theorem Alike.find? : disk'.find? (way ++ [t]) = disk.find? (way ++ [t]) := by
  rw [h.settled.find? ht, h.settled'.find? ht, h.same]

theorem Alike.look? (hn : Plain n) :
    disk'.look? ⟨way ++ [t], n⟩ = disk.look? ⟨way ++ [t], n⟩ :=
  look?_congr hn (h.find? ht)

/-- What is done to the entries of the folder keeps two disks alike. -/
theorem Alike.of_confined {next next' : Entry} (hnext : Confined (way ++ [t]) disk next)
    (hnext' : Confined (way ++ [t]) disk' next')
    (hsame : next'.at? (placeOf way ++ [t]) = next.at? (placeOf way ++ [t])) :
    Alike way t next next' := by
  have hkept {root next : Entry} (hconfined : Confined (way ++ [t]) root next)
      (place : List String) (hplace : ∀ n rest, place ≠ placeOf way ++ n :: rest) :
      next.shape? place = root.shape? place := by
    refine hconfined place fun n rest he => hplace t (n :: rest) ?_
    rw [he, placeOf_of_plain ht]
    simp
  exact ⟨h.settled.of_folders fun place hplace => (hkept hnext place hplace).trans,
    h.settled'.of_folders fun place hplace => (hkept hnext' place hplace).trans, hsame⟩

theorem Alike.changeAt (f : List (String × Entry) → List (String × Entry)) :
    Alike way t (disk.changeAt (way ++ [t]) f) (disk'.changeAt (way ++ [t]) f) := by
  refine h.of_confined ht (confined_changeAt _ disk) (confined_changeAt _ disk') ?_
  rw [← placeOf_of_plain ht, at?_changeAt_self, at?_changeAt_self, h.find? ht]
  cases disk.find? (way ++ [t]) with
  | ok e => rfl
  | error fault =>
    simp only
    rw [placeOf_of_plain ht, h.same]

theorem Alike.change (f : List (String × Entry) → List (String × Entry)) :
    Alike way t (disk.change f (placeOf (way ++ [t]))) (disk'.change f (placeOf (way ++ [t]))) := by
  refine h.of_confined ht (confined_change _ disk) (confined_change _ disk') ?_
  rw [← placeOf_of_plain ht, Entry.at?_change_self, Entry.at?_change_self, placeOf_of_plain ht,
    h.same]

theorem alike_write (hn : Plain n) (bytes : ByteArray) : AlikeResults way t
    (write disk ⟨way ++ [t], n⟩ bytes) (write disk' ⟨way ++ [t], n⟩ bytes) := by
  have hput := h.changeAt ht (Entries.insert n (.file bytes))
  rw [write, write, h.look? ht hn]
  cases disk.look? ⟨way ++ [t], n⟩ with
  | error fault => exact .inl ⟨fault, rfl, rfl⟩
  | ok x =>
    cases x with
    | none => exact .inr ⟨_, _, rfl, rfl, hput⟩
    | some e =>
      cases e with
      | file b => exact .inr ⟨_, _, rfl, rfl, hput⟩
      | folder es => exact .inl ⟨_, rfl, rfl⟩

theorem alike_removeFile (hn : Plain n) : AlikeResults way t
    (removeFile disk ⟨way ++ [t], n⟩) (removeFile disk' ⟨way ++ [t], n⟩) := by
  have htake := h.changeAt ht (Entries.erase n)
  rw [removeFile, removeFile, h.look? ht hn]
  cases disk.look? ⟨way ++ [t], n⟩ with
  | error fault => exact .inl ⟨fault, rfl, rfl⟩
  | ok x =>
    cases x with
    | none => exact .inl ⟨_, rfl, rfl⟩
    | some e =>
      cases e with
      | file b => exact .inr ⟨_, _, rfl, rfl, htake⟩
      | folder es => exact .inl ⟨_, rfl, rfl⟩

theorem alike_copy {m : String} (hm : Plain m) (hn : Plain n) : AlikeResults way t
    (copy disk ⟨way ++ [t], m⟩ ⟨way ++ [t], n⟩) (copy disk' ⟨way ++ [t], m⟩ ⟨way ++ [t], n⟩) := by
  have hread : read disk' ⟨way ++ [t], m⟩ = read disk ⟨way ++ [t], m⟩ := by
    rw [read, read, h.look? ht hm]
  rw [copy, copy, hread]
  cases read disk ⟨way ++ [t], m⟩ with
  | ok bytes => exact alike_write ht h hn bytes
  | error fault => cases fault <;> exact .inl ⟨_, rfl, rfl⟩

theorem alike_link {m : String} (hm : Plain m) (hn : Plain n) : AlikeResults way t
    (link disk ⟨way ++ [t], m⟩ ⟨way ++ [t], n⟩) (link disk' ⟨way ++ [t], m⟩ ⟨way ++ [t], n⟩) := by
  have hput (e : Entry) := h.changeAt ht (Entries.insert n e)
  rw [link, link, h.look? ht hm, h.look? ht hn]
  cases disk.look? ⟨way ++ [t], m⟩ with
  | error fault => exact .inl ⟨fault, rfl, rfl⟩
  | ok x =>
    cases disk.look? ⟨way ++ [t], n⟩ with
    | error fault => exact .inl ⟨fault, by cases x <;> rfl, by cases x <;> rfl⟩
    | ok y =>
      cases x with
      | none => exact .inl ⟨_, rfl, rfl⟩
      | some e =>
        cases y with
        | some e' => exact .inl ⟨_, by cases e <;> rfl, by cases e <;> rfl⟩
        | none =>
          cases e with
          | file b => exact .inr ⟨_, _, rfl, rfl, hput (.file b)⟩
          | folder es => exact .inl ⟨_, rfl, rfl⟩

theorem alike_rename {m : String} (hm : Plain m) (hn : Plain n) : AlikeResults way t
    (rename disk ⟨way ++ [t], m⟩ ⟨way ++ [t], n⟩)
    (rename disk' ⟨way ++ [t], m⟩ ⟨way ++ [t], n⟩) := by
  rw [rename, rename, h.look? ht hm, h.look? ht hn]
  cases disk.look? ⟨way ++ [t], m⟩ with
  | error fault => exact .inl ⟨fault, rfl, rfl⟩
  | ok x =>
    cases disk.look? ⟨way ++ [t], n⟩ with
    | error fault => exact .inl ⟨fault, by cases x <;> rfl, by cases x <;> rfl⟩
    | ok found =>
      cases x with
      | none => exact .inl ⟨_, rfl, rfl⟩
      | some e =>
        simp only
        split
        · exact .inr ⟨_, _, rfl, rfl, h⟩
        split
        · exact .inl ⟨_, rfl, rfl⟩
        split
        · exact .inl ⟨_, rfl, rfl⟩
        cases clash? e found with
        | some fault => exact .inl ⟨fault, rfl, rfl⟩
        | none =>
          have hmoved := (h.changeAt ht (Entries.erase m)).change ht (Entries.insert n e)
          exact .inr ⟨_, _, rfl, rfl, hmoved⟩

theorem alike_removeFolder : AlikeResults way t
    (removeFolder disk ⟨way, t⟩) (removeFolder disk' ⟨way, t⟩) := by
  have hgone (root : Entry) (hroot : root.find? (way ++ [t]) = .ok (.folder [])) :
      (root.take ⟨way, t⟩).at? (placeOf way ++ [t]) = .error .missing := by
    obtain ⟨es, hes, -⟩ := Entry.entry_of_find? ht hroot
    exact at?_take hes t []
  have hfind := h.find? ht
  rw [removeFolder_eq, removeFolder_eq, Location.way, hfind]
  cases hfound : disk.find? (way ++ [t]) with
  | error fault => exact .inl ⟨fault, rfl, rfl⟩
  | ok e =>
    cases e with
    | file b => exact .inl ⟨_, rfl, rfl⟩
    | folder es =>
      cases es with
      | cons e es => exact .inl ⟨_, rfl, rfl⟩
      | nil =>
        rw [hfound] at hfind
        exact .inr ⟨_, _, rfl, rfl, h.settled.of_frame (frame_vanish ht [] hfound),
          h.settled'.of_frame (frame_vanish ht [] hfind),
          (hgone disk' hfind).trans (hgone disk hfound).symm⟩

/-- Requests about a folder are answered alike on disks that are alike. -/
theorem alike_answer (hnames : ∀ n ∈ names, Plain n) (hr : r.Concerns way t names) :
    (answer r disk').1 = (answer r disk).1 ∧ Alike way t (answer r disk).2 (answer r disk').2 := by
  -- Making the folder is the only request that goes along the way.
  have hnext (root : Entry) (hroot : Settled way t root) : Settled way t (answer r root).2 :=
    hroot.of_frame (frame_of_effect ht (effect_of_answer hnames hr root))
  cases hr with
  | read hn =>
    refine ⟨?_, h⟩
    rw [answer, answer, read, read, h.look? ht (hnames _ hn)]
  | probe hn =>
    refine ⟨?_, h⟩
    rw [answer, answer, probe, probe, h.look? ht (hnames _ hn)]
  | write hn => exact alike_settle h (alike_write ht h (hnames _ hn) _)
  | link hm hn => exact alike_settle h (alike_link ht h (hnames _ hm) (hnames _ hn))
  | rename hm hn => exact alike_settle h (alike_rename ht h (hnames _ hm) (hnames _ hn))
  | copy hm hn => exact alike_settle h (alike_copy ht h (hnames _ hm) (hnames _ hn))
  | removeFile hn => exact alike_settle h (alike_removeFile ht h (hnames _ hn))
  | makeFolder =>
    obtain ⟨hreply, hfound⟩ := h.settled.grow ht
    obtain ⟨hreply', hfound'⟩ := h.settled'.grow ht
    rw [h.find? ht] at hreply' hfound'
    refine ⟨hreply'.trans hreply.symm, hnext disk h.settled, hnext disk' h.settled', ?_⟩
    rw [h.same, ← hfound] at hfound'
    exact hfound'
  | removeFolder => exact alike_settle h (alike_removeFolder ht h)

end

/-! ## Another folder -/

/-- What is done to the files of one folder leaves the place of another one as it is. -/
theorem at?_change_sibling (hu : Plain u) (hne : u ≠ t) (root : Entry) :
    (root.change f (placeOf (way ++ [u]))).at? (placeOf way ++ [t]) =
      root.at? (placeOf way ++ [t]) := by
  rw [placeOf_of_plain hu]
  exact Entry.at?_change_apart (fun h => hne (eq_of_begins h).symm) fun h => hne (eq_of_begins h)

theorem at?_changeAt_sibling (hu : Plain u) (hne : u ≠ t) (root : Entry) :
    (root.changeAt (way ++ [u]) f).at? (placeOf way ++ [t]) = root.at? (placeOf way ++ [t]) := by
  rcases Entry.changeAt_cases root (way ++ [u]) f with hsame | hchange
  · rw [hsame]
  · rw [hchange, at?_change_sibling hu hne]

theorem at?_of_effect (hu : Plain u) (hne : u ≠ t) (houtside : Outside way)
    (h : Effect way u names disk disk') :
    disk'.at? (placeOf way ++ [t]) = disk.at? (placeOf way ++ [t]) := by
  cases h with
  | none => rfl
  | put hn => exact at?_changeAt_sibling hu hne disk
  | take hn => exact at?_changeAt_sibling hu hne disk
  | move hm hn he =>
    exact (at?_change_sibling hu hne _).trans (at?_changeAt_sibling hu hne disk)
  | grow =>
    refine at?_grow (fun front hfront hbelow => ?_) disk
    rcases List.prefix_concat_iff.1 hfront with rfl | hfront
    · rw [placeOf_of_plain hu] at hbelow
      exact hne (eq_of_begins hbelow).symm
    · obtain ⟨rest, hrest⟩ := hbelow
      exact houtside front hfront t rest (by rw [← hrest]; simp)
  | vanish hfound =>
    exact Entry.at?_changeAt_below (fun es => by rw [Entries.get?_erase, if_neg hne]) []

/-- After a request about one folder the disk is alike for another one. -/
theorem alike_of_concerns (hnames : ∀ n ∈ names, Plain n) (hu : Plain u) (hne : u ≠ t)
    (h : Settled way t disk) (hr : r.Concerns way u names) : Alike way t disk (answer r disk).2 := by
  have heffect := effect_of_answer hnames hr disk
  exact ⟨h, h.of_frame (frame_of_effect hu heffect), at?_of_effect hu hne h.outside heffect⟩

end ClusterLedger.Disk
