import ClusterLedger.Proofs.Disk.Confined
import ClusterLedger.Proofs.Except

/-!
# What requests about one folder come to

A folder of a root is made and removed, and files of some names in it are worked on. Such a request
has one of a few effects, and from these follows what it reaches: the files of these names, the folder
itself, and folders that were missing on the way.
-/
namespace ClusterLedger.Disk

open Entry (LeadsTo)

namespace Entry

variable {root : Entry} {p q way : List String} {n : String} {es : List (String × Entry)}
  {f : List (String × Entry) → List (String × Entry)}

/-- Neither below a folder nor on the way to it, nothing changes with it. -/
theorem at?_change_apart (hq : ¬q <+: p) (hp : ¬p <+: q) : (root.change f p).at? q = root.at? q := by
  induction p generalizing root q with
  | nil => exact absurd List.nil_prefix hp
  | cons m rest ih =>
    cases q with
    | nil => exact absurd List.nil_prefix hq
    | cons m' q =>
      cases root with
      | file b => rfl
      | folder entries =>
        rw [change]
        cases hget : Entries.get? m entries with
        | none => rfl
        | some e =>
          rw [at?, at?, Entries.get?_insert]
          by_cases hm : m = m'
          · subst hm
            rw [if_pos rfl, hget]
            exact ih (fun h => hq (List.cons_prefix_cons.2 ⟨rfl, h⟩))
              fun h => hp (List.cons_prefix_cons.2 ⟨rfl, h⟩)
          · rw [if_neg hm]

theorem at?_changeAt_below (hf : ∀ es, Entries.get? n (f es) = Entries.get? n es)
    (rest : List String) : (root.changeAt way f).at? (placeOf way ++ n :: rest) =
      root.at? (placeOf way ++ n :: rest) := by
  rw [changeAt]
  cases hfollow : root.follow? way with
  | error fault => rfl
  | ok p =>
    rw [follow?_eq_ok hfollow]
    exact at?_change_below hf rest

/-- A folder that is new where nothing stood is seen nowhere but there. -/
theorem at?_insert_new (hroot : root.at? p = .ok (.folder es)) (hn : Entries.get? n es = none)
    (hq : ¬q <+: p ++ [n]) :
    (root.change (Entries.insert n (.folder [])) p).at? q = root.at? q := by
  by_cases hp : p <+: q
  · obtain ⟨rest, rfl⟩ := hp
    cases rest with
    | nil => exact absurd (by simp) hq
    | cons m rest =>
      by_cases hm : m = n
      · subst hm
        rw [at?_append, at?_append, at?_change_self, hroot]
        simp only [Except.map, Except.bind, onFolder, at?, Entries.get?_insert, if_true, hn]
        cases rest with
        | nil => exact absurd (List.prefix_refl _) hq
        | cons m' rest => rfl
      · exact at?_change_below (fun es => by rw [Entries.get?_insert, if_neg (Ne.symm hm)]) rest
  · exact at?_change_apart (fun h => hq (h.trans (List.prefix_append p [n]))) hp

theorem shape?_insert_new (hroot : root.at? p = .ok (.folder es)) (hn : Entries.get? n es = none)
    (hq : q ≠ p ++ [n]) :
    (root.change (Entries.insert n (.folder [])) p).shape? q = root.shape? q := by
  by_cases hbegins : q <+: p ++ [n]
  · refine shape?_change fun m rest he => hq (hbegins.eq_of_length_le ?_)
    rw [he]
    simp only [List.length_append, List.length_cons, List.length_nil]
    omega
  · rw [shape?, shape?, at?_insert_new hroot hn hbegins]

end Entry

/-! ## Requests about a folder -/

/-- A request about a folder in a root: to make it, to remove it, or about files in it. -/
inductive Request.Concerns (way : List String) (t : String) (names : List String) :
    Request → Prop
  | makeFolder : Concerns way t names (.makeFolder (way ++ [t]))
  | read {n} (hn : n ∈ names) : Concerns way t names (.read ⟨way ++ [t], n⟩)
  | write {n bytes} (hn : n ∈ names) : Concerns way t names (.write ⟨way ++ [t], n⟩ bytes)
  | link {m n} (hm : m ∈ names) (hn : n ∈ names) :
      Concerns way t names (.link ⟨way ++ [t], m⟩ ⟨way ++ [t], n⟩)
  | rename {m n} (hm : m ∈ names) (hn : n ∈ names) :
      Concerns way t names (.rename ⟨way ++ [t], m⟩ ⟨way ++ [t], n⟩)
  | copy {m n} (hm : m ∈ names) (hn : n ∈ names) :
      Concerns way t names (.copy ⟨way ++ [t], m⟩ ⟨way ++ [t], n⟩)
  | removeFile {n} (hn : n ∈ names) : Concerns way t names (.removeFile ⟨way ++ [t], n⟩)
  | removeFolder : Concerns way t names (.removeFolder ⟨way, t⟩)
  | probe {n} (hn : n ∈ names) : Concerns way t names (.probe ⟨way ++ [t], n⟩)

/-- What a request about a folder in a root does: nothing, or it puts or takes a file, or moves what
stands under one name to another, or makes the folder, or removes it when it is empty. -/
inductive Effect (way : List String) (t : String) (names : List String) (disk : Entry) :
    Entry → Prop
  | none : Effect way t names disk disk
  | put {n bytes} (hn : n ∈ names) :
      Effect way t names disk (disk.put ⟨way ++ [t], n⟩ (.file bytes))
  | take {n} (hn : n ∈ names) : Effect way t names disk (disk.take ⟨way ++ [t], n⟩)
  | move {m n e} (hm : m ∈ names) (hn : n ∈ names)
      (he : disk.at? (Location.place ⟨way ++ [t], m⟩) = .ok e) :
      Effect way t names disk (disk.moved ⟨way ++ [t], m⟩ ⟨way ++ [t], n⟩ e)
  | grow : Effect way t names disk (disk.grow (way ++ [t])).2
  | vanish (h : disk.find? (way ++ [t]) = .ok (.folder [])) :
      Effect way t names disk (disk.take ⟨way, t⟩)

variable {root root' root'' disk : Entry} {way names : List String} {t n : String} {r : Request}
  {bytes : ByteArray}

theorem effect_settle {x : Except Fault Entry}
    (h : ∀ next, x = .ok next → Effect way t names disk next) :
    Effect way t names disk (settle disk x).2 := by
  cases x with
  | ok next => exact h next rfl
  | error fault => exact .none

theorem effect_write (hn : n ∈ names) :
    Effect way t names disk (settle disk (write disk ⟨way ++ [t], n⟩ bytes)).2 := by
  refine effect_settle fun next h => ?_
  rw [write] at h
  split at h
  · cases h
  · cases h
    exact .put hn
  · cases h

theorem find?_of_look? {l : Location} {e : Entry} (h : disk.look? l = .ok (some e)) :
    disk.find? l.way = .ok e := by
  rw [Entry.look?] at h
  rw [Entry.find?]
  split at h
  · cases h
  · next place hfollow =>
    rw [hfollow]
    split at h
    · next hat =>
      cases h
      exact hat
    · cases h
    · cases h

theorem at?_of_find? {e : Entry} (h : disk.find? way = .ok e) :
    disk.at? (placeOf way) = .ok e := by
  rw [Entry.find?] at h
  split at h
  · next place hfollow => rwa [Entry.follow?_eq_ok hfollow] at h
  · cases h

theorem effect_of_answer (hnames : ∀ n ∈ names, Plain n) (h : r.Concerns way t names)
    (disk : Entry) : Effect way t names disk (answer r disk).2 := by
  cases h with
  | makeFolder => exact .grow
  | read hn => exact .none
  | probe hn => exact .none
  | write hn => exact effect_write hn
  | @link m n hm hn =>
    refine effect_settle fun next h => ?_
    rw [link] at h
    split at h
    · cases h
    · cases h
    · cases h
    · cases h
    · cases h
    · next e hfolder _ _ =>
      cases h
      cases e with
      | file bytes => exact .put hn
      | folder entries => exact absurd rfl (hfolder entries)
  | @rename m n hm hn =>
    refine effect_settle fun next h => ?_
    by_cases hplace : Location.place ⟨way ++ [t], m⟩ = Location.place ⟨way ++ [t], n⟩
    · rw [rename_of_place_eq hplace h]
      exact .none
    · obtain ⟨-, e, found, hlook, -, -, rfl⟩ := (rename_eq_ok_iff hplace).1 h
      refine .move hm hn ?_
      rw [Location.place, ← placeOf_of_plain (hnames m hm)]
      exact at?_of_find? (find?_of_look? hlook)
  | @copy m n hm hn =>
    refine effect_settle fun next h => ?_
    rw [copy] at h
    split at h
    · next bytes _ =>
      have hwrite : Effect way t names disk
          (settle disk (write disk ⟨way ++ [t], n⟩ bytes)).2 := effect_write hn
      rw [h] at hwrite
      exact hwrite
    · cases h
    · cases h
  | @removeFile n hn =>
    refine effect_settle fun next h => ?_
    rw [removeFile] at h
    split at h
    · cases h
      exact .take hn
    · cases h
    · cases h
    · cases h
  | removeFolder =>
    refine effect_settle fun next h => ?_
    rw [removeFolder] at h
    split at h
    · next hlook =>
      cases h
      exact .vanish (find?_of_look? hlook)
    · cases h
    · cases h
    · cases h
    · cases h

/-! ## Folders that are made -/

/-- Where no folder is made, nothing changes. -/
theorem at?_growFrom {rest here q : List String}
    (hq : ∀ front, front <+: rest → ¬q <+: front.foldl walk here) (root : Entry) :
    (root.growFrom here rest).2.at? q = root.at? q := by
  induction rest generalizing root here with
  | nil => rw [Entry.growFrom]
  | cons name rest ih =>
    rw [Entry.growFrom]
    split
    · rfl
    · next next hstep =>
      have hnext : next = walk here name := (Entry.step?_eq_ok hstep).2
      have hrest : ∀ front, front <+: rest → ¬q <+: front.foldl walk next := by
        intro front hfront
        rw [hnext]
        exact hq (name :: front) (List.cons_prefix_cons.2 ⟨rfl, hfront⟩)
      split
      · next hmissing =>
        obtain ⟨hnew, es, hat, hget⟩ := new_of_step? hstep hmissing
        rw [ih hrest]
        exact Entry.at?_insert_new hat hget (hnew ▸ hrest [] List.nil_prefix)
      · exact ih hrest root

theorem at?_grow {q : List String} (hq : ∀ front, front <+: way → ¬q <+: placeOf front)
    (root : Entry) : (root.grow way).2.at? q = root.at? q := by
  rw [Entry.grow]
  split
  · exact at?_growFrom hq root
  · rfl

/-- A folder stands where nothing was. -/
structure Made (root root' : Entry) (place : List String) : Prop where
  before : root.shape? place = .error .missing
  after : root'.shape? place = .ok none

theorem Made.file? {place : List String} (h : Made root root' place) :
    root'.file? place = root.file? place := by
  ext b
  rw [← Entry.shape?_eq_file, ← Entry.shape?_eq_file, h.before, h.after]
  exact iff_of_false nofun nofun

/-- Making folders is seen only where they are made. -/
theorem shape?_growFrom (rest here : List String) (root : Entry) (q : List String) :
    (root.growFrom here rest).2.shape? q = root.shape? q ∨
      Made root (root.growFrom here rest).2 q ∧
        ∃ front, front <+: rest ∧ q = front.foldl walk here := by
  induction rest generalizing root here with
  | nil =>
    rw [Entry.growFrom]
    exact .inl rfl
  | cons name rest ih =>
    rw [Entry.growFrom]
    split
    · exact .inl rfl
    · next next hstep =>
      have hnext : next = walk here name := (Entry.step?_eq_ok hstep).2
      have hcons {front : List String} (hfront : front <+: rest) :
          name :: front <+: name :: rest :=
        List.cons_prefix_cons.2 ⟨rfl, hfront⟩
      split
      · next hmissing =>
        obtain ⟨hnew, es, hat, hget⟩ := new_of_step? hstep hmissing
        have hlater := ih next (root.change (Entries.insert name (.folder [])) here)
        by_cases hq : q = next
        · have hfolder : (root.change (Entries.insert name (.folder [])) here).shape? q =
              .ok none := by
            have hchanged := Entry.at?_change hat (f := Entries.insert name (.folder []))
            rw [hq, hnew, Entry.shape?_child hchanged, Entries.get?_insert, if_pos rfl]
            rfl
          have hbefore : root.shape? q = .error .missing := by
            rw [hq, Entry.shape?, hmissing]
            rfl
          -- What has been made is not made again, as it is not missing any more.
          rcases hlater with hsame | ⟨hmade, -⟩
          · refine .inr ⟨⟨hbefore, hsame.trans hfolder⟩, [name], hcons List.nil_prefix, ?_⟩
            rw [hq, hnext]
            rfl
          · cases hfolder.symm.trans hmade.before
        · have hkept := Entry.shape?_insert_new hat hget (hnew ▸ hq)
          rcases hlater with hsame | ⟨hmade, front, hfront, hplace⟩
          · exact .inl (hsame.trans hkept)
          · refine .inr ⟨⟨hkept.symm.trans hmade.before, hmade.after⟩, name :: front,
              hcons hfront, ?_⟩
            rw [hplace, hnext]
            rfl
      · rcases ih next root with hsame | ⟨hmade, front, hfront, hq⟩
        · exact .inl hsame
        · refine .inr ⟨hmade, name :: front, hcons hfront, ?_⟩
          rw [hq, hnext]
          rfl

theorem shape?_grow (way : List String) (root : Entry) (q : List String) :
    (root.grow way).2.shape? q = root.shape? q ∨
      Made root (root.grow way).2 q ∧ ∃ front, front <+: way ∧ q = placeOf front := by
  rw [Entry.grow]
  split
  · exact shape?_growFrom way [] root q
  · exact .inl rfl

/-! ## What is reached -/

/-- No part of a way leads into the folder at its end. -/
def Outside (way : List String) : Prop :=
  ∀ front, front <+: way → ∀ n rest, placeOf front ≠ placeOf way ++ n :: rest

/-- How a place can be another one: it is under one of the names in the folder, or a folder has been
made on the way there, or the folder itself has been removed. -/
inductive Reached (way : List String) (t : String) (names : List String) (root root' : Entry)
    (place : List String) : Prop
  | file {n : String} (hn : n ∈ names) (hplace : placeOf way ++ [t, n] <+: place)
  | made {front : List String} (hfront : front <+: way ++ [t]) (hplace : place = placeOf front)
      (h : Made root root' place)
  | removed (hplace : place = placeOf way ++ [t]) (before : root.shape? place = .ok none)
      (after : root'.shape? place = .error .missing)

/-- A file, or what stands in the folder under one of the names. -/
def Stands (way : List String) (t : String) (names : List String) (root : Entry) (e : Entry) :
    Prop :=
  (∃ bytes, e = .file bytes) ∨ ∃ m ∈ names, root.at? (placeOf way ++ [t, m]) = .ok e

/-- A disk is another one only where work on the files of some names in a folder reaches, and what
stands under these names is a file or stood there before, under one of them. -/
structure Frame (way : List String) (t : String) (names : List String) (root root' : Entry) :
    Prop where
  reached : ∀ place, root'.shape? place = root.shape? place ∨
    Reached way t names root root' place
  stands : Outside way → ∀ n ∈ names, ∀ e, root'.at? (placeOf way ++ [t, n]) = .ok e →
    Stands way t names root e

theorem Frame.refl (way : List String) (t : String) (names : List String) (root : Entry) :
    Frame way t names root root :=
  ⟨fun _ => .inl rfl, fun _ n hn _ h => .inr ⟨n, hn, h⟩⟩

/-- What was made and then removed, or removed and made again, is as it was. -/
theorem reached_trans {place : List String}
    (h : root'.shape? place = root.shape? place ∨ Reached way t names root root' place)
    (h' : root''.shape? place = root'.shape? place ∨ Reached way t names root' root'' place) :
    root''.shape? place = root.shape? place ∨ Reached way t names root root'' place := by
  rcases h with hsame | hreached
  · rcases h' with hsame' | hreached'
    · exact .inl (hsame'.trans hsame)
    · refine .inr ?_
      cases hreached' with
      | file hn hplace => exact .file hn hplace
      | made hfront hplace h => exact .made hfront hplace ⟨hsame ▸ h.before, h.after⟩
      | removed hplace before after => exact .removed hplace (hsame ▸ before) after
  · cases hreached with
    | file hn hplace => exact .inr (.file hn hplace)
    | made hfront hplace h =>
      rcases h' with hsame' | hreached'
      · exact .inr (.made hfront hplace ⟨h.before, hsame'.trans h.after⟩)
      · cases hreached' with
        | file hn hplace => exact .inr (.file hn hplace)
        | made _ _ h' => cases h.after.symm.trans h'.before
        | removed _ _ after => exact .inl (after.trans h.before.symm)
    | removed hplace before after =>
      rcases h' with hsame' | hreached'
      · exact .inr (.removed hplace before (hsame'.trans after))
      · cases hreached' with
        | file hn hplace => exact .inr (.file hn hplace)
        | made _ _ h' => exact .inl (h'.after.trans before.symm)
        | removed _ before' _ => cases after.symm.trans before'

theorem Frame.trans (h : Frame way t names root root') (h' : Frame way t names root' root'') :
    Frame way t names root root'' := by
  refine ⟨fun place => reached_trans (h.reached place) (h'.reached place),
    fun houtside n hn e he => ?_⟩
  rcases h'.stands houtside n hn e he with hfile | ⟨m, hm, he'⟩
  · exact .inl hfile
  · exact h.stands houtside m hm e he'

theorem file?_below {p : List String} (h : root.shape? p ≠ .ok none) (m : String)
    (rest : List String) : root.file? (p ++ m :: rest) = none := by
  rw [Entry.file?, Entry.at?_append]
  cases hat : root.at? p with
  | error fault => rfl
  | ok e =>
    cases e with
    | file bytes => rfl
    | folder es => exact absurd (Entry.shape?_eq_folder.2 ⟨es, hat⟩) h

theorem Frame.shape?_ne_folder (h : Frame way t names root root') (houtside : Outside way)
    (hfiles : ∀ n ∈ names, root.shape? (placeOf way ++ [t, n]) ≠ .ok none) (hn : n ∈ names) :
    root'.shape? (placeOf way ++ [t, n]) ≠ .ok none := by
  intro hfolder
  obtain ⟨es, hat⟩ := Entry.shape?_eq_folder.1 hfolder
  rcases h.stands houtside n hn _ hat with ⟨bytes, hfile⟩ | ⟨m, hm, hbefore⟩
  · cases hfile
  · exact hfiles m hm (Entry.shape?_eq_folder.2 ⟨es, hbefore⟩)

/-- Unless a folder stands under one of the names, all files that change are directly in the
folder. -/
theorem Frame.file?_eq (h : Frame way t names root root') (houtside : Outside way)
    (hfiles : ∀ n ∈ names, root.shape? (placeOf way ++ [t, n]) ≠ .ok none) (place : List String) :
    root'.file? place = root.file? place ∨ ∃ n ∈ names, place = placeOf way ++ [t, n] := by
  rcases h.reached place with hsame | hreached
  · exact .inl (Entry.file?_of_shape? hsame)
  · cases hreached with
    | @file n hn hbelow =>
      obtain ⟨rest, rfl⟩ := hbelow
      -- Below the name there were no files, and there are none now.
      cases rest with
      | nil => exact .inr ⟨n, hn, List.append_nil _⟩
      | cons m rest =>
        rw [file?_below (hfiles n hn), file?_below (h.shape?_ne_folder houtside hfiles hn)]
        exact .inl rfl
    | made _ _ hmade => exact .inl hmade.file?
    | removed _ before after => exact .inl (Made.file? ⟨after, before⟩).symm

section

variable {f : List (String × Entry) → List (String × Entry)} {base : Entry} (ht : Plain t)
include ht

theorem reached_change (hf : ∀ n, n ∉ names → ∀ es, Entries.get? n (f es) = Entries.get? n es)
    (root : Entry) (place : List String) :
    (root.change f (placeOf (way ++ [t]))).shape? place = root.shape? place ∨
      Reached way t names root (root.change f (placeOf (way ++ [t]))) place := by
  by_cases hplace : ∃ n rest, place = placeOf (way ++ [t]) ++ n :: rest
  · obtain ⟨n, rest, rfl⟩ := hplace
    by_cases hn : n ∈ names
    · refine .inr (.file hn ⟨rest, ?_⟩)
      rw [placeOf_of_plain ht]
      simp
    · refine .inl ?_
      rw [Entry.shape?, Entry.shape?, Entry.at?_change_below (hf n hn)]
  · exact .inl (Entry.shape?_change fun n rest he => hplace ⟨n, rest, he⟩)

/-- What a change puts into the folder stands there. -/
theorem stands_change
    (hf : ∀ es, ∀ n ∈ names, ∀ e, Entries.get? n (f es) = some e →
      Entries.get? n es = some e ∨ Stands way t names base e)
    (hroot : ∀ n ∈ names, ∀ e, root.at? (placeOf way ++ [t, n]) = .ok e → Stands way t names base e)
    (n : String) (hn : n ∈ names) (e : Entry)
    (he : (root.change f (placeOf (way ++ [t]))).at? (placeOf way ++ [t, n]) = .ok e) :
    Stands way t names base e := by
  have hsplit (m : String) : placeOf way ++ [t, m] = placeOf (way ++ [t]) ++ [m] := by
    rw [placeOf_of_plain ht]
    simp
  simp only [hsplit] at he hroot
  obtain ⟨es', hat', hget⟩ := Entry.at?_snoc_eq_ok.1 he
  rw [Entry.at?_change_self] at hat'
  obtain ⟨entry, hat, hentry⟩ := Except.map_eq_ok.1 hat'
  cases entry with
  | file b => cases hentry
  | folder es =>
    cases hentry
    rcases hf es n hn e hget with hbefore | hstands
    · exact hroot n hn e (Entry.at?_snoc_eq_ok.2 ⟨es, hat, hbefore⟩)
    · exact hstands

/-- Taking files reaches no other names, and brings nothing. -/
theorem frame_take (hn : n ∈ names) (root : Entry) :
    Frame way t names root (root.take ⟨way ++ [t], n⟩) := by
  rcases Entry.changeAt_cases root (way ++ [t]) (Entries.erase n) with hsame | hchange
  · rw [Entry.take, hsame]
    exact .refl way t names root
  rw [Entry.take, hchange]
  refine ⟨reached_change ht (fun m hm es => ?_) root, fun _ => stands_change ht
    (fun es m _ e he => .inl ?_) fun m hm e he => .inr ⟨m, hm, he⟩⟩
  · have hne : n ≠ m := fun he => hm (he ▸ hn)
    rw [Entries.get?_erase, if_neg hne]
  · rw [Entries.get?_erase] at he
    split at he
    · cases he
    · exact he

/-- An entry that is inserted reaches no other names; it has to be a file, or to stand there
before. -/
theorem frame_insert {e : Entry} (hn : n ∈ names) (h : Frame way t names base root)
    (he : Stands way t names base e) :
    Frame way t names base (root.change (Entries.insert n e) (placeOf (way ++ [t]))) := by
  refine ⟨fun place => reached_trans (h.reached place)
    (reached_change ht (fun m hm es => ?_) root place), fun houtside => stands_change ht
      (fun es m _ e' he' => ?_) (h.stands houtside)⟩
  · have hne : n ≠ m := fun he => hm (he ▸ hn)
    rw [Entries.get?_insert, if_neg hne]
  · rw [Entries.get?_insert] at he'
    split at he'
    · cases he'
      exact .inr he
    · exact .inl he'

theorem frame_put (hn : n ∈ names) (bytes : ByteArray) (root : Entry) :
    Frame way t names root (root.put ⟨way ++ [t], n⟩ (.file bytes)) := by
  rcases Entry.changeAt_cases root (way ++ [t]) (Entries.insert n (.file bytes)) with hsame | hchange
  · rw [Entry.put, hsame]
    exact .refl way t names root
  · rw [Entry.put, hchange]
    exact frame_insert ht hn (.refl way t names root) (.inl ⟨bytes, rfl⟩)

theorem frame_grow (names : List String) (root : Entry) :
    Frame way t names root (root.grow (way ++ [t])).2 := by
  refine ⟨fun place => ?_, fun houtside n hn e he => .inr ⟨n, hn, ?_⟩⟩
  · rcases shape?_grow (way ++ [t]) root place with hsame | ⟨hmade, front, hfront, hplace⟩
    · exact .inl hsame
    · exact .inr (.made hfront hplace hmade)
  · rwa [at?_grow fun front hfront hbelow => ?_] at he
    rcases List.prefix_concat_iff.1 hfront with rfl | hfront
    · have hlength := hbelow.length_le
      rw [placeOf_of_plain ht] at hlength
      simp at hlength
    · obtain ⟨rest, hrest⟩ := hbelow
      exact houtside front hfront t (n :: rest) (by rw [← hrest]; simp)

/-- The folder that is removed is empty. -/
theorem frame_vanish (names : List String) (h : root.find? (way ++ [t]) = .ok (.folder [])) :
    Frame way t names root (root.take ⟨way, t⟩) := by
  obtain ⟨es, hes, hget⟩ := Entry.entry_of_find? ht h
  refine ⟨fun place => ?_, fun _ n _ e he => ?_⟩
  · by_cases hplace : ∃ m rest, place = placeOf way ++ m :: rest
    · obtain ⟨m, rest, rfl⟩ := hplace
      by_cases hm : m = t
      · subst hm
        have hgone := at?_take hes m rest
        -- The folder was empty, so nothing was found below it before either.
        cases rest with
        | nil =>
          refine .inr (.removed rfl ?_ ?_)
          · rw [Entry.shape?_child hes.folder, hget]
            rfl
          · rw [Entry.shape?, hgone]
            rfl
        | cons m' rest =>
          refine .inl ?_
          rw [Entry.shape?, Entry.shape?, hgone, Entry.at?_append, hes.folder]
          simp only [Except.bind, Entry.at?, hget]
          rfl
      · refine .inl ?_
        rw [Entry.shape?, Entry.shape?, Entry.take, Entry.at?_changeAt_below fun es => ?_]
        rw [Entries.get?_erase, if_neg (Ne.symm hm)]
    · exact .inl (confined_changeAt way root place fun m rest he => hplace ⟨m, rest, he⟩)
  · cases (at?_take hes t [n]).symm.trans he

theorem frame_of_effect (h : Effect way t names root root') : Frame way t names root root' := by
  cases h with
  | none => exact .refl way t names root
  | put hn => exact frame_put ht hn _ root
  | take hn => exact frame_take ht hn root
  | @move m n e hm hn he =>
    refine frame_insert ht hn (frame_take ht hm root) (.inr ⟨m, hm, ?_⟩)
    rw [Location.place, placeOf_of_plain ht] at he
    rw [← he]
    simp
  | grow => exact frame_grow ht names root
  | vanish h => exact frame_vanish ht names h

end

end ClusterLedger.Disk
