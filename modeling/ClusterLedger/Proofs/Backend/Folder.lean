import ClusterLedger.Backend.Folder
import ClusterLedger.Proofs.Attempt
import ClusterLedger.Proofs.Backend.Clients
import ClusterLedger.Proofs.Disk.Operations
import ClusterLedger.Proofs.Except
import ClusterLedger.Proofs.Lock.Record
import ClusterLedger.Proofs.Text.Affix

/-!
# Folders that guard their writes

Every step of the storage in folders is followed to what it does to the lock record and the document
of a target. On an arbitrary disk the record may be out of reach, or a folder may stand in its place.
-/
namespace ClusterLedger.Backend.Folder

open Disk (Entry Plain Touches Location)
open Disk.Entry (SameFolders LeadsTo)
open Attempt (Chains)

variable {root d : Folder} {caller : Caller} {disk disk' : Entry} {name : String}
  {files : List Location} {l : Location} {lock : Lock}

/-! ## Names -/

@[simp] theorem name_file (d : Folder) (name : String) : (d.file name).name = name :=
  rfl

theorem plain_of_head {c : Char} (h : name.toList.head? = some c) (hc : c ≠ '.') : Plain name := by
  refine ⟨?_, ?_⟩
  · rintro rfl
    exact hc (Option.some.inj h).symm
  · rintro (rfl | rfl)
    · cases h
    · exact hc (Option.some.inj h).symm

theorem plain_lockFile : Plain Target.lockFile :=
  ⟨by decide, by decide⟩

theorem plain_markerFile : Plain markerFile :=
  ⟨by decide, by decide⟩

theorem plain_stateFile : Plain Target.stateFile :=
  ⟨by decide, by decide⟩

theorem plain_stagingFile : Plain stagingFile :=
  ⟨by decide, by decide⟩

theorem plain_backupFile : Plain backupFile :=
  ⟨by decide, by decide⟩

/-- The private name that a token makes of the name of the lock. -/
def privateFile (token suffix : String) : String :=
  Target.lockFile ++ "." ++ token ++ suffix

theorem toList_privateFile (token suffix : String) : (privateFile token suffix).toList =
    Target.lockFile.toList ++ '.' :: token.toList ++ suffix.toList := by
  simp [privateFile]

theorem plain_privateFile (token suffix : String) : Plain (privateFile token suffix) :=
  plain_of_head (c := 'l') (by rw [toList_privateFile]; rfl) (by decide)

theorem privateFile_ne_lockFile (token suffix : String) :
    privateFile token suffix ≠ Target.lockFile := by
  intro h
  have hlength := congrArg (fun s : String => s.toList.length) h
  simp only [toList_privateFile, List.length_append, List.length_cons] at hlength
  omega

theorem privateFile_ne_stateFile (token suffix : String) :
    privateFile token suffix ≠ Target.stateFile := by
  intro h
  have hhead := congrArg (fun s : String => s.toList.head?) h
  rw [toList_privateFile] at hhead
  cases hhead

theorem plain_recordFile (lock : Lock) : Plain (recordFile lock) :=
  plain_privateFile lock.token ".tmp"

theorem plain_claimFile (claim : Lock) : Plain (claimFile claim) :=
  plain_privateFile claim.token ".taken"

/-! ### Where private files are -/

/-- A path without a slash is a name in the folder. -/
theorem locate_of_single (d : Folder) {path : String} (h : '/' ∉ path.toList) :
    d.locate path = d.file path := by
  simp [locate, file, Text.segments_of_not_mem h]

theorem locate_of_check (d : Folder) {path : String}
    (h : Entry.check (d.way ++ [path]) = .ok ()) : d.locate path = d.file path :=
  d.locate_of_single (Disk.isName_iff.1 (Entry.isName_of_check h (by simp))).2

/-- A path with a slash leads through another folder. -/
theorem locate_of_slash (d : Folder) {path : String} (h : '/' ∈ path.toList) {c : Char}
    (hhead : path.toList.head? = some c) (hslash : c ≠ '/') (hdot : c ≠ '.') :
    ∃ front rest, Plain front ∧ (d.locate path).folder = d.way ++ front :: rest := by
  obtain ⟨front, rest, hsegments, hrest, after, hpath⟩ := Text.segments_of_mem h
  refine ⟨front, rest.dropLast, plain_of_head (c := c) ?_ hdot, ?_⟩
  · rw [← hpath] at hhead
    cases hfront : front.toList with
    | nil =>
      rw [hfront] at hhead
      exact absurd (Option.some.inj hhead).symm hslash
    | cons b tail =>
      rw [hfront] at hhead
      exact hhead
  · rw [locate, hsegments, List.dropLast_cons_of_ne_nil hrest]

theorem slash_notMem_privateFile {token suffix : String} (htoken : '/' ∉ token.toList)
    (hsuffix : '/' ∉ suffix.toList) : '/' ∉ (privateFile token suffix).toList := by
  simp [toList_privateFile, htoken, hsuffix, Target.lockFile]

theorem locate_recordFile (d : Folder) (h : '/' ∉ lock.token.toList) :
    d.locate (recordFile lock) = d.file (recordFile lock) :=
  d.locate_of_single (slash_notMem_privateFile h (by decide : '/' ∉ ".tmp".toList))

theorem locate_claimFile (d : Folder) {claim : Lock} (h : '/' ∉ claim.token.toList) :
    d.locate (claimFile claim) = d.file (claimFile claim) :=
  d.locate_of_single (slash_notMem_privateFile h (by decide : '/' ∉ ".taken".toList))

/-- Wherever a private path leads, the name there has its suffix. -/
theorem suffix_locate (d : Folder) (token : String) {suffix : String} (h : '/' ∉ suffix.toList) :
    suffix.toList <:+ (d.locate (privateFile token suffix)).name.toList :=
  Text.suffix_getLast_segments h _

theorem suffix_privateFile (token suffix : String) :
    suffix.toList <:+ (privateFile token suffix).toList :=
  ⟨_, (toList_privateFile token suffix).symm⟩

theorem ne_of_suffix {suffix other : String} (h : suffix.toList <:+ name.toList)
    (hother : ¬suffix.toList <:+ other.toList) : name ≠ other := by
  rintro rfl
  exact hother h

theorem plain_of_suffix {suffix : String} (h : suffix.toList <:+ name.toList)
    (hsuffix : ∀ s ∈ ["..", "", "."], ¬suffix.toList <:+ s.toList) : Plain name := by
  refine ⟨ne_of_suffix h (hsuffix _ (by simp)), not_or.2 ⟨?_, ?_⟩⟩
  · exact ne_of_suffix h (hsuffix _ (by simp))
  · exact ne_of_suffix h (hsuffix _ (by simp))

theorem plain_record (d : Folder) (lock : Lock) : Plain (d.locate (recordFile lock)).name :=
  plain_of_suffix (d.suffix_locate lock.token (by decide : '/' ∉ ".tmp".toList)) (by decide)

theorem plain_claim (d : Folder) (claim : Lock) : Plain (d.locate (claimFile claim)).name :=
  plain_of_suffix (d.suffix_locate claim.token (by decide : '/' ∉ ".taken".toList)) (by decide)

theorem record_ne (d : Folder) (lock : Lock) (h : ¬".tmp".toList <:+ name.toList) :
    (d.locate (recordFile lock)).name ≠ name :=
  ne_of_suffix (d.suffix_locate lock.token (by decide : '/' ∉ ".tmp".toList)) h

theorem forall_record (d : Folder) (lock : Lock) {other : String}
    (h : ¬".tmp".toList <:+ other.toList) (hne : name ≠ other) :
    ∀ f ∈ [d.locate (recordFile lock), d.file name], f.name ≠ other :=
  List.forall_mem_cons.2 ⟨d.record_ne lock h, List.forall_mem_singleton.2 hne⟩

theorem claim_ne (d : Folder) (claim : Lock) (h : ¬".taken".toList <:+ name.toList) :
    (d.locate (claimFile claim)).name ≠ name :=
  ne_of_suffix (d.suffix_locate claim.token (by decide : '/' ∉ ".taken".toList)) h

/-! ## The record of a folder -/

/-- The token in the file of the lock, wherever the way leads. -/
def slot (d : Folder) (disk : Entry) : Option String :=
  Lock.tokenIn? (disk.file? (d.file Target.lockFile).place)

/-- The token in the file of the lock as it is read. -/
def onRecord (d : Folder) (disk : Entry) : Option String :=
  Lock.tokenIn? (Disk.read disk (d.file Target.lockFile)).toOption

theorem slot_of_file? (h : disk'.file? (d.file Target.lockFile).place =
    disk.file? (d.file Target.lockFile).place) : d.slot disk' = d.slot disk := by
  rw [slot, slot, h]

theorem slot_of_none (h : disk.file? (d.file Target.lockFile).place = none) :
    d.slot disk = none := by
  rw [slot, h]
  rfl

theorem slot_of_toBytes (h : disk.file? (d.file Target.lockFile).place = some lock.toBytes) :
    d.slot disk = none ∨ d.slot disk = some lock.token := by
  rw [slot, h]
  exact Lock.tokenIn?_toBytes lock

/-- A record is read where it stands, if the way can be followed. -/
theorem onRecord_eq_some {t : String} : d.onRecord disk = some t ↔
    disk.Reaches (d.file Target.lockFile) ∧ d.slot disk = some t := by
  constructor
  · intro h
    rw [onRecord] at h
    cases hread : Disk.read disk (d.file Target.lockFile) with
    | error f =>
      rw [hread] at h
      cases h
    | ok bytes =>
      rw [hread] at h
      obtain ⟨hreaches, hfile⟩ := (Disk.read_eq_ok plain_lockFile).1 hread
      refine ⟨hreaches, ?_⟩
      have hplace : disk.file? (d.file Target.lockFile).place = some bytes := hfile
      rw [slot, hplace]
      exact h
  · rintro ⟨hreaches, hslot⟩
    rw [slot] at hslot
    cases hfile : disk.file? (d.file Target.lockFile).place with
    | none =>
      rw [hfile] at hslot
      cases hslot
    | some bytes =>
      rw [hfile] at hslot
      have hread : Disk.read disk (d.file Target.lockFile) = .ok bytes :=
        (Disk.read_eq_ok plain_lockFile).2 ⟨hreaches, hfile⟩
      rw [onRecord, hread]
      exact hslot

theorem leadsTo_of_reaches (h : disk.Reaches (d.file name)) : ∃ es, LeadsTo disk d.way es :=
  Entry.leadsTo_of_follow? h (List.cons_ne_nil name [])

theorem shape_ne_folder_of_slot {t : String} (h : d.slot disk = some t) :
    disk.shape? (d.file Target.lockFile).place ≠ .ok none := by
  intro hfolder
  obtain ⟨es, hat⟩ := Entry.shape?_eq_folder.1 hfolder
  have hnone : disk.file? (d.file Target.lockFile).place = none := by rw [Entry.file?, hat]; rfl
  rw [slot_of_none hnone] at h
  cases h

/-- What a call about the lock does: the record stays, or it is removed, or it is one that the caller
has made. If no folder stands in its place, the folders and the document stay as they are. -/
structure Change (d : Folder) (caller : Caller) (disk disk' : Entry) : Prop where
  slot : d.slot disk' = d.slot disk ∨ d.slot disk' = none ∨
    ∃ k, d.slot disk' = some (caller.token k)
  rest : disk.shape? (d.file Target.lockFile).place ≠ .ok none → SameFolders disk disk' ∧
    disk'.file? (d.file Target.stateFile).place = disk.file? (d.file Target.stateFile).place

theorem chains_change (d : Folder) (caller : Caller) : Chains (d.Change caller) where
  refl disk := ⟨.inl rfl, fun _ => ⟨SameFolders.refl disk, rfl⟩⟩
  trans h h' := by
    refine ⟨?_, fun hshape => ?_⟩
    · rcases h'.slot with hslot | hslot
      · rw [hslot]
        exact h.slot
      · exact .inr hslot
    · obtain ⟨hfolders, hstate⟩ := h.rest hshape
      obtain ⟨hfolders', hstate'⟩ := h'.rest fun hfolder => hshape ((hfolders _).2 hfolder)
      exact ⟨hfolders.trans hfolders', hstate'.trans hstate⟩

theorem change_of_touches (h : Touches files disk disk')
    (hlock : ∀ f ∈ files, f.name ≠ Target.lockFile)
    (hstate : ∀ f ∈ files, f.name ≠ Target.stateFile) : d.Change caller disk disk' :=
  ⟨.inl (slot_of_file? (h.file? hlock)), fun _ => ⟨h.folders, h.file? hstate⟩⟩

theorem chains_touches (files : List Location) : Chains (Touches files) :=
  ⟨Touches.refl files, Touches.trans⟩

/-! ## Steps -/

variable {β : Type} {r : Disk.Request} {P : Result β → Entry → Prop}

theorem ends_ask {Q : Result r.Yield → Entry → Prop} : (ask r).Ends Disk.answer disk Q ↔
    Q (Except.mapError .disk (Disk.answer r disk).1) (Disk.answer r disk).2 :=
  Iff.rfl

/-- A request is answered, and the rest is done unless it fails. -/
theorem ends_ask_bind {f : r.Yield → Attempt Disk.effects β}
    (hok : ∀ v next, Disk.answer r disk = (.ok v, next) → (f v).Ends Disk.answer next P)
    (herror : ∀ fault next, Disk.answer r disk = (.error fault, next) →
      P (.error (.disk fault)) next) :
    (ask r >>= f).Ends Disk.answer disk P := by
  refine Attempt.ends_bind.2 (ends_ask.2 ?_)
  cases hreply : (Disk.answer r disk).1 with
  | ok v => exact hok v _ (Prod.ext hreply rfl)
  | error fault => exact herror fault _ (Prod.ext hreply rfl)

/-- A request is answered, and the rest is done with the answer. -/
theorem ends_attempt_bind {f : Except Disk.Fault r.Yield → Attempt Disk.effects β}
    (h : ∀ reply next, Disk.answer r disk = (reply, next) → (f reply).Ends Disk.answer next P) :
    (attempt r >>= f).Ends Disk.answer disk P :=
  Attempt.ends_bind.2 (h _ _ rfl)

theorem discardAt_within (l : Location) (hname : Plain l.name) :
    (discardAt l).Within Disk.answer (Touches [l]) := by
  refine fun disk => ends_attempt_bind fun reply next hremove => ?_
  have htouches : Touches [l] disk next := Disk.touches_removeFile hremove hname
  split
  · exact htouches
  · exact htouches
  · exact htouches

/-- Reading a record changes nothing. -/
theorem readLockAt_ends (l : Location) (shown : String) (disk : Entry) :
    (readLockAt l shown).Ends Disk.answer disk fun r disk' => disk' = disk ∧
      r.toOption.join = (Disk.read disk l).toOption.bind Lock.ofBytes? := by
  refine ends_attempt_bind fun reply next hread => ?_
  have hreply : Disk.read disk l = reply := congrArg Prod.fst hread
  have hnext : next = disk := (congrArg Prod.snd hread).symm
  rw [hreply, hnext]
  split
  · next bytes =>
    cases hlock : Lock.ofBytes? bytes with
    | some lock => exact ⟨rfl, hlock.symm⟩
    | none => exact ⟨rfl, hlock.symm⟩
  · exact ⟨rfl, rfl⟩
  · exact ⟨rfl, rfl⟩

/-- A record is created under a name or it is not; other files are as before. -/
theorem create_ends (d : Folder) (lock : Lock) (hname : Plain name)
    (hne : (d.locate (recordFile lock)).name ≠ name) (disk : Entry) :
    (d.create name lock).Ends Disk.answer disk fun r disk' =>
      Touches [d.locate (recordFile lock), d.file name] disk disk' ∧
        (disk'.file? (d.file name).place = disk.file? (d.file name).place ∨
          disk'.file? (d.file name).place = some lock.toBytes) ∧
        (r = .ok true → disk'.Reaches (d.file name)) := by
  have hplain := d.plain_record lock
  have hother : ∀ f ∈ [d.locate (recordFile lock)], f.name ≠ (d.file name).name := by
    simpa using hne
  refine ends_ask_bind (fun _ disk1 hwrite => ?_) (fun fault disk1 hwrite => ?_)
  · obtain ⟨hwritten, hrecord⟩ := Disk.write_eq_ok (Disk.settle_eq_ok hwrite) hplain
    refine ends_attempt_bind fun linked disk2 hlink => ?_
    have hlinked := Disk.touches_link hlink hplain hname
    have hfile : disk2.file? (d.file name).place = disk.file? (d.file name).place ∨
        disk2.file? (d.file name).place = some lock.toBytes :=
      (Disk.file?_link hlink hplain hname).imp (·.trans (hwritten.file? hother))
        (·.trans hrecord)
    refine Attempt.ends_bind.2 ((discardAt_within _ hplain disk2).imp fun r disk' hdiscard => ?_)
    have htouches : Touches [d.locate (recordFile lock), d.file name] disk disk' :=
      ((hwritten.mono (by simp)).trans (hlinked.mono (by simp))).trans (hdiscard.mono (by simp))
    have hsame : disk'.file? (d.file name).place = disk2.file? (d.file name).place :=
      hdiscard.file? hother
    rw [← hsame] at hfile
    cases r with
    | error e => exact ⟨htouches, hfile, nofun⟩
    | ok u =>
      cases linked with
      | ok u =>
        have hreaches := (Disk.reaches_link hlink hplain hname).of_sameFolders hdiscard.folders
        exact ⟨htouches, hfile, fun _ => hreaches⟩
      | error fault => cases fault <;> exact ⟨htouches, hfile, nofun⟩
  · rw [Disk.settle_eq_error hwrite]
    exact ⟨Touches.refl _ disk, .inl rfl, nofun⟩

/-! ## Locks -/

theorem readLock_within {R : Entry → Entry → Prop} (hR : Chains R) (d : Folder) (name : String) :
    (d.readLock name).Within Disk.answer R := by
  intro disk
  refine (readLockAt_ends (d.file name) _ disk).imp fun r disk' h => ?_
  rw [h.1]
  exact hR.refl disk

/-- A record that is moved away, or moved away and back, is there or not. -/
theorem change_of_moved (claim : Lock)
    (hfile : disk'.file? (d.file Target.lockFile).place = none ∨
      disk'.file? (d.file Target.lockFile).place = disk.file? (d.file Target.lockFile).place)
    (htouches : disk.shape? (d.file Target.lockFile).place ≠ .ok none →
      Touches [d.file Target.lockFile, d.locate (claimFile claim)] disk disk') :
    d.Change caller disk disk' := by
  refine ⟨?_, fun hshape => ?_⟩
  · rcases hfile with hnone | hsame
    · exact .inr (.inl (slot_of_none hnone))
    · exact .inl (slot_of_file? hsame)
  · have hstate : ∀ f ∈ [d.file Target.lockFile, d.locate (claimFile claim)],
        f.name ≠ Target.stateFile := by
      exact List.forall_mem_cons.2 ⟨(by decide : Target.lockFile ≠ Target.stateFile),
        List.forall_mem_singleton.2 (d.claim_ne claim (by decide))⟩
    exact ⟨(htouches hshape).folders, (htouches hshape).file? hstate⟩

theorem discardAt_change (l : Location) (hname : Plain l.name) (hlock : l.name ≠ Target.lockFile)
    (hstate : l.name ≠ Target.stateFile) :
    (discardAt l).Within Disk.answer (d.Change caller) :=
  (discardAt_within l hname).mono fun _ _ h =>
    change_of_touches h (List.forall_mem_singleton.2 hlock) (List.forall_mem_singleton.2 hstate)

theorem take_within (d : Folder) (caller : Caller) (claim : Lock) (token : String) :
    (d.take claim token).Within Disk.answer (d.Change caller) := by
  intro disk
  have hchain := chains_change d caller
  have hclaim := d.plain_claim claim
  have hne : (d.file Target.lockFile).place ≠ (d.locate (claimFile claim)).place :=
    fun he => d.claim_ne claim (by decide) ((Disk.name_of_place he).symm.trans (d.name_file _))
  have hdiscard : (discardAt (d.locate (claimFile claim))).Within Disk.answer (d.Change caller) :=
    discardAt_change _ hclaim (d.claim_ne claim (by decide)) (d.claim_ne claim (by decide))
  refine ends_attempt_bind fun reply disk1 hrename => ?_
  split
  · rw [Disk.settle_eq_error hrename]
    exact hchain.refl disk
  · rw [Disk.settle_eq_error hrename]
    exact hchain.refl disk
  · obtain ⟨hmoved, hgone, htouches⟩ :=
      Disk.rename_eq_ok (Disk.settle_eq_ok hrename) plain_lockFile hclaim hne
    refine Attempt.ends_bind.2 (Attempt.ends_outcome.2 ((readLockAt_ends _ _ disk1).imp ?_))
    rintro found disk1' ⟨hread, -⟩
    rw [hread]
    show Attempt.Ends _ (if _ then _ else _) _ _
    split
    · have hremoved : d.Change caller disk disk1 := change_of_moved claim (.inl hgone) htouches
      refine (hchain.bind hdiscard (fun _ => hchain.pure _) disk1).imp fun r disk' h => ?_
      exact hchain.trans hremoved h
    · refine ends_attempt_bind fun restored disk2 hlink => ?_
      have hfile := Disk.file?_link hlink hclaim plain_lockFile
      have hback : d.Change caller disk disk2 := by
        refine change_of_moved claim ?_ fun hshape => ?_
        · rcases hfile with hfile | hfile
          · exact .inl (hfile.trans hgone)
          · exact .inr (hfile.trans hmoved)
        · exact (htouches hshape).trans
            ((Disk.touches_link hlink hclaim plain_lockFile).mono (by simp))
      refine (hchain.bind hdiscard (fun _ => ?_) disk2).imp fun r disk' h => hchain.trans hback h
      split
      · exact hchain.bind (hchain.ofResult found) fun lock => by cases lock <;> exact hchain.pure _
      · exact hchain.bind (hchain.ofResult found) fun lock => by cases lock <;> exact hchain.pure _
      · exact hchain.throw _

/-! ## Taking a lock -/

theorem breakMarked_within (d : Folder) (target : String) (caller : Caller) (stale : Lock) :
    (d.breakMarked target caller stale).Within Disk.answer (d.Change caller) := by
  have hchain := chains_change d caller
  refine hchain.bind (readLock_within hchain d _) fun current => ?_
  cases current with
  | none => exact hchain.pure _
  | some current =>
    show Attempt.Within _ _ (if _ then _ else _)
    split
    · exact hchain.throw_bind _ _
    · refine hchain.bind (d.take_within caller _ _) fun taken => ?_
      cases taken with
      | removed => exact hchain.pure _
      | missing => exact hchain.pure _
      | other lock => exact hchain.throw _

/-- The marker is no file that the lock or the document is in. -/
theorem createMarker_within (d : Folder) (caller : Caller) (lock : Lock) :
    (d.create markerFile lock).Within Disk.answer (d.Change caller) := by
  refine fun disk => (create_ends d lock plain_markerFile (d.record_ne lock (by decide)) disk).imp
    fun r disk' h => change_of_touches h.1 ?_ ?_
  · exact d.forall_record lock (by decide) (by decide)
  · exact d.forall_record lock (by decide) (by decide)

theorem breakStale_within (d : Folder) (target : String) (caller : Caller) (stale : Lock) :
    (d.breakStale target caller stale).Within Disk.answer (d.Change caller) := by
  have hchain := chains_change d caller
  have hdiscard : (d.discard markerFile).Within Disk.answer (d.Change caller) :=
    discardAt_change _ plain_markerFile (by decide : markerFile ≠ Target.lockFile)
      (by decide : markerFile ≠ Target.stateFile)
  refine hchain.bind (d.createMarker_within caller _) fun created => ?_
  cases created with
  | true =>
    have hbreak := d.breakMarked_within target caller stale
    exact hchain.bind hbreak.outcome fun _ =>
      hchain.bind hdiscard.outcome fun _ => hchain.ofResult _
  | false =>
    refine hchain.bind (readLock_within hchain d _) fun marker => ?_
    show Attempt.Within _ _ (if _ then _ else _)
    split
    · exact hchain.bind hdiscard fun _ => hchain.throw _
    · exact hchain.throw _

/-- A new record is one of the caller's, and stands where it can be read when it is taken. -/
theorem createLock_ends (d : Folder) (caller : Caller) (k : Nat) (disk : Entry) :
    (d.create Target.lockFile (caller.lock k)).Ends Disk.answer disk fun r disk' =>
      d.Change caller disk disk' ∧ (r = .ok true → disk'.Reaches (d.file Target.lockFile)) := by
  refine (create_ends d (caller.lock k) plain_lockFile
    (d.record_ne _ (by decide)) disk).imp fun r disk' ⟨htouches, hfile, hreaches⟩ => ?_
  refine ⟨⟨?_, fun _ => ⟨htouches.folders, htouches.file? ?_⟩⟩, hreaches⟩
  · rcases hfile with hsame | hnew
    · exact .inl (slot_of_file? hsame)
    · exact .inr ((slot_of_toBytes hnew).imp_right fun h => ⟨k, h⟩)
  · rw [name_file]
    exact d.forall_record _ (by decide) (by decide)

theorem tryAcquire_ends (d : Folder) (target : String) (caller : Caller) (k : Nat)
    (breaksAfter : Option Nat) (disk : Entry) :
    (d.tryAcquire target caller (caller.lock k) breaksAfter).Ends Disk.answer disk fun r disk' =>
      d.Change caller disk disk' ∧ ∀ lock, r = .ok (some lock) →
        lock = caller.lock k ∧ disk'.Reaches (d.file Target.lockFile) := by
  have hchain := chains_change d caller
  refine Attempt.ends_bind.2 ((d.createLock_ends caller k disk).imp ?_)
  rintro (e | created) disk1 ⟨hchange, hreaches⟩
  · exact ⟨hchange, nofun⟩
  · cases created with
    | true =>
      refine ⟨hchange, fun lock h => ?_⟩
      cases h
      exact ⟨rfl, hreaches rfl⟩
    | false =>
      refine Attempt.ends_bind.2 ((readLockAt_ends _ _ disk1).imp ?_)
      rintro r disk2 ⟨rfl, -⟩
      rcases r with e | current
      · exact ⟨hchange, nofun⟩
      · cases current with
        | none => exact ⟨hchange, nofun⟩
        | some current =>
          show Attempt.Ends _ (if _ then _ else _) _ _
          split
          · refine Attempt.ends_bind.2 ((d.breakStale_within target caller current _).imp ?_)
            intro r disk' hbreak
            cases r with
            | error e => exact ⟨hchain.trans hchange hbreak, nofun⟩
            | ok u => exact ⟨hchain.trans hchange hbreak, nofun⟩
          · exact ⟨hchange, nofun⟩

/-! ## The operations -/

theorem target_eq_ok {target : String} (h : root.target target = .ok d) :
    d = root.sub target ∧ Plain target := by
  obtain ⟨u, hcheck, rfl⟩ := Except.map_eq_ok.1 h
  refine ⟨rfl, ?_⟩
  rw [Target.check] at hcheck
  split at hcheck
  · next hvalid =>
    simp only [Target.isValid, decide_eq_true_eq] at hvalid
    exact ⟨hvalid.2.2.1, not_or.2 ⟨hvalid.1, hvalid.2.1⟩⟩
  · cases hcheck

/-- An operation on a target is the one on its folder, or the name is refused. -/
theorem ends_target_bind {target : String} {f : Folder → Attempt Disk.effects β}
    (herror : ∀ e, P (.error e) disk)
    (h : Plain target → (f (root.sub target)).Ends Disk.answer disk P) :
    (Attempt.ofResult (root.target target) >>= f).Ends Disk.answer disk P := by
  refine Attempt.ends_bind.2 (Attempt.ends_ofResult.2 ?_)
  cases htarget : root.target target with
  | error e => exact herror e
  | ok d =>
    obtain ⟨rfl, hplain⟩ := target_eq_ok htarget
    exact h hplain

/-- Taking a lock makes the folder of the target; what comes after is a change there. -/
theorem acquire_ends (root : Folder) (caller : Caller) (staleAfter : Nat) (target : String)
    (disk : Entry) :
    (root.acquire caller staleAfter target).Ends Disk.answer disk fun r disk' =>
      (disk' = disk ∨ (root.sub target).Change caller (disk.grow (root.sub target).way).2 disk') ∧
        ∀ lock, r = .ok lock → (∃ k, lock.token = caller.token k) ∧
          disk'.Reaches ((root.sub target).file Target.lockFile) := by
  have hchain := chains_change (root.sub target) caller
  refine ends_target_bind (fun e => ⟨.inl rfl, nofun⟩) fun _ => ?_
  refine ends_ask_bind (fun _ next hmake => ?_) (fun fault next hmake => ?_)
  · have hgrow : (disk.grow (root.sub target).way).2 = next := congrArg Prod.snd hmake
    rw [hgrow]
    refine Attempt.ends_bind.2 ((tryAcquire_ends _ target caller 0 _ next).imp ?_)
    rintro (e | lock) disk1 ⟨hchange, htaken⟩
    · exact ⟨.inr hchange, nofun⟩
    cases lock with
    | some lock =>
      refine ⟨.inr hchange, fun lock' h => ?_⟩
      cases h
      obtain ⟨rfl, hreaches⟩ := htaken lock rfl
      exact ⟨⟨0, rfl⟩, hreaches⟩
    | none =>
      refine Attempt.ends_bind.2 ((tryAcquire_ends _ target caller 3 _ disk1).imp ?_)
      rintro (e | lock) disk2 ⟨hchange', htaken'⟩
      · exact ⟨.inr (hchain.trans hchange hchange'), nofun⟩
      cases lock with
      | some lock =>
        refine ⟨.inr (hchain.trans hchange hchange'), fun lock' h => ?_⟩
        cases h
        obtain ⟨rfl, hreaches⟩ := htaken' lock rfl
        exact ⟨⟨3, rfl⟩, hreaches⟩
      | none => exact ⟨.inr (hchain.trans hchange hchange'), nofun⟩
  · have hgrow : (disk.grow (root.sub target).way).2 = next := congrArg Prod.snd hmake
    rw [hgrow]
    exact ⟨.inr (hchain.refl next), nofun⟩

/-- Giving up a lock may remove the folder with everything in it, which is then nothing. -/
theorem release_ends (root : Folder) (caller : Caller) (target : String) (lock : Lock)
    (disk : Entry) :
    (root.release caller target lock).Ends Disk.answer disk fun _ disk' =>
      (root.sub target).Change caller disk disk' ∨ (root.sub target).slot disk' = none := by
  have hchain := chains_change (root.sub target) caller
  refine ends_target_bind (fun e => .inl (hchain.refl disk)) fun hplain => ?_
  refine Attempt.ends_bind.2 ((take_within _ caller _ lock.token disk).imp ?_)
  rintro (e | taken) disk1 hchange
  · exact .inl hchange
  cases taken with
  | missing => exact .inl hchange
  | other current => exact .inl hchange
  | removed =>
    refine ends_ask_bind (fun holds next hprobe => ?_) (fun fault next hprobe => ?_)
    · obtain rfl : disk1 = next := congrArg Prod.snd hprobe
      cases holds with
      | true => exact .inl hchange
      | false =>
        refine ends_attempt_bind fun reply next hremove => ?_
        cases reply with
        | error f =>
          rw [Disk.settle_eq_error hremove]
          exact .inl hchange
        | ok u =>
          have hnone := Disk.removeFolder_eq_ok hplain (Disk.settle_eq_ok hremove)
          exact .inr (slot_of_none (hnone Target.lockFile))
    · obtain rfl : disk1 = next := congrArg Prod.snd hprobe
      exact .inl hchange

/-- Whoever gets past the guard has the token on record. -/
theorem guard_ends (d : Folder) (target : String) (lock : Lock) (disk : Entry) :
    (d.guard target lock).Ends Disk.answer disk fun r disk' =>
      disk' = disk ∧ (r = .ok () → d.onRecord disk = some lock.token) := by
  refine Attempt.ends_bind.2 ((readLockAt_ends _ _ disk).imp ?_)
  rintro (e | current) disk' ⟨rfl, hcurrent⟩
  · exact ⟨rfl, nofun⟩
  · refine ⟨rfl, fun h => ?_⟩
    change verify target lock current = .ok () at h
    rw [verify] at h
    split at h
    · next htoken =>
      have hread : (Disk.read disk' (d.file Target.lockFile)).toOption.bind Lock.ofBytes? = current :=
        hcurrent.symm
      rw [onRecord, Lock.tokenIn?, hread, htoken]
    · cases h

/-- Behind the guard only certain files are touched. -/
theorem ends_guard_bind {target : String} {f : Unit → Attempt Disk.effects Unit}
    (hf : (f ()).Ends Disk.answer disk fun _ disk' => Touches files disk disk') :
    (d.guard target lock >>= f).Ends Disk.answer disk fun r disk' =>
      (r = .ok () → d.onRecord disk = some lock.token) ∧
        (disk' = disk ∨ d.onRecord disk = some lock.token ∧ Touches files disk disk') := by
  refine Attempt.ends_bind.2 ((guard_ends d target lock disk).imp ?_)
  rintro (e | u) disk' ⟨rfl, hrecord⟩
  · exact ⟨nofun, .inl rfl⟩
  · exact hf.imp fun r disk' h => ⟨fun _ => hrecord rfl, .inr ⟨hrecord rfl, h⟩⟩

/-- The files that a change of the document touches. -/
def documentFiles : List String :=
  [stagingFile, backupFile, Target.stateFile]

/-- The places of these files. -/
def documentPlaces (d : Folder) : List Location :=
  documentFiles.map d.file

theorem subset_documentPlaces (d : Folder) (h : name ∈ documentFiles) :
    [d.file name] ⊆ d.documentPlaces :=
  List.cons_subset.2 ⟨List.mem_map_of_mem h, List.nil_subset _⟩

theorem documentPlaces_ne_lockFile (d : Folder) :
    ∀ f ∈ d.documentPlaces, f.name ≠ (d.file Target.lockFile).name := by
  have hnames : ∀ n ∈ documentFiles, n ≠ Target.lockFile := by decide
  rintro f hf he
  obtain ⟨n, hn, rfl⟩ := List.mem_map.1 hf
  exact hnames n hn he

theorem persist_ends (root : Folder) (target : String) (bytes : ByteArray) (lock : Lock)
    (disk : Entry) :
    (root.persist target bytes lock).Ends Disk.answer disk fun r disk' =>
      (r = .ok () → (root.sub target).onRecord disk = some lock.token) ∧
        (disk' = disk ∨ (root.sub target).onRecord disk = some lock.token ∧
          Touches (root.sub target).documentPlaces disk disk') := by
  refine ends_target_bind (fun e => ⟨nofun, .inl rfl⟩) fun _ => ends_guard_bind ?_
  refine ends_ask_bind (fun _ disk1 hwrite => ?_) (fun fault disk1 hwrite => ?_)
  · obtain ⟨hwritten, hstaged⟩ := Disk.write_eq_ok (Disk.settle_eq_ok hwrite) plain_stagingFile
    have hdisk1 : Touches (root.sub target).documentPlaces disk disk1 :=
      hwritten.mono (subset_documentPlaces _ (by decide))
    -- What is staged is a file, so that the move takes no folder along.
    have hrename (disk2 : Entry) (hdisk2 : Touches (root.sub target).documentPlaces disk disk2)
        (hstaged : disk2.file? ((root.sub target).file stagingFile).place = some bytes) :
        (ask (.rename ((root.sub target).file stagingFile)
          ((root.sub target).file Target.stateFile))).Ends Disk.answer disk2
          fun _ disk' => Touches (root.sub target).documentPlaces disk disk' := by
      refine ends_ask.2 ?_
      generalize hnext : Disk.answer (.rename ((root.sub target).file stagingFile)
        ((root.sub target).file Target.stateFile)) disk2 = next
      obtain ⟨reply, disk'⟩ := next
      refine hdisk2.trans (Disk.touches_of_settle (fun next hnext => ?_) hnext)
      have hne : ((root.sub target).file stagingFile).place ≠
          ((root.sub target).file Target.stateFile).place :=
        fun he => absurd (Disk.name_of_place he) (by decide : stagingFile ≠ Target.stateFile)
      obtain ⟨-, -, htouches⟩ := Disk.rename_eq_ok hnext plain_stagingFile plain_stateFile hne
      have hsubset : [(root.sub target).file stagingFile, (root.sub target).file Target.stateFile] ⊆
          (root.sub target).documentPlaces :=
        List.cons_subset.2 ⟨List.mem_map_of_mem (by decide), subset_documentPlaces _ (by decide)⟩
      refine (htouches fun hfolder => ?_).mono hsubset
      have hfile := Entry.shape?_eq_file.2 hstaged
      rw [show disk2.shape? ((root.sub target).file stagingFile).place = .ok none from hfolder]
        at hfile
      cases hfile
    refine ends_ask_bind (fun holds next hprobe => ?_) (fun fault next hprobe => ?_)
    · obtain rfl : disk1 = next := congrArg Prod.snd hprobe
      cases holds with
      | false => exact hrename disk1 hdisk1 hstaged
      | true =>
        refine ends_ask_bind (fun _ disk2 hcopy => ?_) (fun fault disk2 hcopy => ?_)
        · have hcopied := Disk.touches_copy hcopy plain_backupFile
          refine hrename disk2 (hdisk1.trans (hcopied.mono (subset_documentPlaces _ (by decide)))) ?_
          have hkept : ∀ f ∈ [(root.sub target).file backupFile],
              f.name ≠ ((root.sub target).file stagingFile).name :=
            List.forall_mem_singleton.2 (by decide : backupFile ≠ stagingFile)
          exact (hcopied.file? hkept).trans hstaged
        · exact hdisk1.trans ((Disk.touches_copy hcopy plain_backupFile).mono
            (subset_documentPlaces _ (by decide)))
    · obtain rfl : disk1 = next := congrArg Prod.snd hprobe
      exact hdisk1
  · rw [Disk.settle_eq_error hwrite]
    exact Touches.refl _ disk

theorem delete_ends (root : Folder) (target : String) (lock : Lock) (disk : Entry) :
    (root.delete target lock).Ends Disk.answer disk fun r disk' =>
      (r = .ok () → (root.sub target).onRecord disk = some lock.token) ∧
        (disk' = disk ∨ (root.sub target).onRecord disk = some lock.token ∧
          Touches (root.sub target).documentPlaces disk disk') := by
  have hchain := chains_touches (root.sub target).documentPlaces
  have hdiscard {name : String} (hplain : Plain name) (hname : name ∈ documentFiles) :
      ((root.sub target).discard name).Within Disk.answer
        (Touches (root.sub target).documentPlaces) :=
    (discardAt_within _ hplain).mono fun _ _ h => h.mono (subset_documentPlaces _ hname)
  refine ends_target_bind (fun e => ⟨nofun, .inl rfl⟩) fun _ => ends_guard_bind ?_
  exact hchain.bind (hdiscard plain_stateFile (by decide))
    (fun _ => hdiscard plain_backupFile (by decide)) disk

/-- The document that is read from a file. -/
def documentOf (target : String) : Except Disk.Fault ByteArray → Result ByteArray
  | .ok bytes => .ok bytes
  | .error .missing => .error (.missing (.snapshot target))
  | .error fault => .error (.disk fault)

/-- The document of a target, if it is one. -/
def document (root : Folder) (target : String) (disk : Entry) : Result ByteArray :=
  (root.target target).bind fun d =>
    documentOf target (Disk.read disk (d.file Target.stateFile))

theorem load_run (root : Folder) (target : String) (disk : Entry) :
    (root.load target).run Disk.answer disk = (root.document target disk, disk) := by
  have hends : (root.load target).Ends Disk.answer disk fun r disk' =>
      disk' = disk ∧ r = root.document target disk := by
    refine Attempt.ends_bind.2 (Attempt.ends_ofResult.2 ?_)
    rw [document]
    cases root.target target with
    | error e => exact ⟨rfl, rfl⟩
    | ok d =>
      refine ends_attempt_bind fun reply next hread => ?_
      obtain rfl : disk = next := congrArg Prod.snd hread
      obtain rfl : Disk.read disk (d.file Target.stateFile) = reply := congrArg Prod.fst hread
      show _ ∧ _ = documentOf target (Disk.read disk (d.file Target.stateFile))
      cases Disk.read disk (d.file Target.stateFile) with
      | ok bytes => exact ⟨rfl, rfl⟩
      | error fault => cases fault <;> exact ⟨rfl, rfl⟩
  exact Prod.ext hends.2 hends.1

theorem document_congr {target : String}
    (h : Disk.read disk' ((root.sub target).file Target.stateFile) =
      Disk.read disk ((root.sub target).file Target.stateFile)) :
    root.document target disk' = root.document target disk := by
  rw [document, document]
  cases htarget : root.target target with
  | error e => rfl
  | ok d =>
    rw [(target_eq_ok htarget).1]
    exact congrArg (documentOf target) h

/-! ## The storage -/

/-- The storage in a folder. -/
def storage (root : Folder) : Storage Entry :=
  fun caller staleAfter r disk => (root.perform caller staleAfter r).run Disk.answer disk

/-- What a call about a target comes to: a change, once the folder is made; or the document is
written by the holder of the lock; or there is no record any more. -/
inductive Course (d : Folder) (caller : Caller) (r : Request) (disk disk' : Entry) : Prop
  | change (start : Entry) (hslot : d.slot start = d.slot disk)
      (hstart : ∀ t, d.onRecord disk = some t → start = disk) (h : d.Change caller start disk')
  | write (t : String) (hrecord : d.onRecord disk = some t) (hfor : r.WritesFor t)
      (h : Touches d.documentPlaces disk disk')
  | gone (h : d.slot disk' = none)

theorem course_of_change {r : Request} (h : d.Change caller disk disk') :
    d.Course caller r disk disk' :=
  .change disk rfl (fun _ _ => rfl) h

theorem course_of_eq {r : Request} (h : disk' = disk) : d.Course caller r disk disk' := by
  rw [h]
  exact course_of_change ((chains_change d caller).refl disk)

theorem course_of_grown {r : Request} (h : d.Change caller (disk.grow d.way).2 disk') :
    d.Course caller r disk disk' := by
  refine .change _ (slot_of_file? (Disk.file?_grow d.way disk _)) (fun t hrecord => ?_) h
  obtain ⟨es, hleads⟩ := leadsTo_of_reaches (onRecord_eq_some.1 hrecord).1
  rw [Disk.grow_of_leadsTo hleads]

theorem course (root : Folder) (target : String) (caller : Caller) (staleAfter : Nat)
    {r : Request} (hr : r.About target) (disk : Entry) :
    (root.sub target).Course caller r disk (root.storage caller staleAfter r disk).2 := by
  cases hr with
  | acquire =>
    rcases (acquire_ends root caller staleAfter target disk).1 with hsame | hchange
    · exact course_of_eq hsame
    · exact course_of_grown hchange
  | release lock =>
    rcases release_ends root caller target lock disk with hchange | hgone
    · exact course_of_change hchange
    · exact .gone hgone
  | load => exact course_of_eq (congrArg Prod.snd (load_run root target disk))
  | persist bytes lock =>
    rcases (persist_ends root target bytes lock disk).2 with hsame | ⟨hrecord, htouches⟩
    · exact course_of_eq hsame
    · exact .write lock.token hrecord rfl htouches
  | delete lock =>
    rcases (delete_ends root target lock disk).2 with hsame | ⟨hrecord, htouches⟩
    · exact course_of_eq hsame
    · exact .write lock.token hrecord rfl htouches

theorem Course.slot {r : Request} (h : d.Course caller r disk disk') :
    d.slot disk' = d.slot disk ∨ d.slot disk' = none ∨
      ∃ k, d.slot disk' = some (caller.token k) := by
  cases h with
  | change start hslot _ h =>
    rw [← hslot]
    exact h.slot
  | write t _ _ h => exact .inl (slot_of_file? (h.file? d.documentPlaces_ne_lockFile))
  | gone h => exact .inr (.inl h)

/-- A token on record that stands in its place is still on record, and unless the call writes for it
the document is what it was. -/
theorem Course.steady {r : Request} {t : String} (h : d.Course caller r disk disk')
    (hrecord : d.onRecord disk = some t) (hslot : d.slot disk' = some t) :
    d.onRecord disk' = some t ∧ (¬r.WritesFor t →
      Disk.read disk' (d.file Target.stateFile) = Disk.read disk (d.file Target.stateFile)) := by
  obtain ⟨hreaches, hbefore⟩ := onRecord_eq_some.1 hrecord
  cases h with
  | change start _ hstart h =>
    obtain rfl := hstart t hrecord
    obtain ⟨hfolders, hstate⟩ := h.rest (shape_ne_folder_of_slot hbefore)
    refine ⟨onRecord_eq_some.2 ⟨hreaches.of_sameFolders hfolders, hslot⟩, fun _ => ?_⟩
    obtain ⟨es, hleads⟩ := leadsTo_of_reaches hreaches
    obtain ⟨es', hleads'⟩ := hleads.of_sameFolders hfolders
    exact Disk.read_congr hleads hleads' plain_stateFile (by decide) hfolders hstate
  | write t' hrecord' hfor h =>
    obtain rfl : t' = t := Option.some.inj (hrecord'.symm.trans hrecord)
    refine ⟨onRecord_eq_some.2 ⟨hreaches.of_sameFolders h.folders, hslot⟩, fun hnot => ?_⟩
    exact absurd hfor hnot
  | gone h =>
    rw [h] at hslot
    cases hslot

/-- The storage in a folder guards its writes, whatever the disk. -/
theorem guarded (root : Folder) (target : String) :
    Guarded root.storage target (root.sub target).slot (root.sub target).onRecord
      (root.document target) where
  slot_of_onRecord h := (onRecord_eq_some.1 h).2
  loads _ _ disk := load_run root target disk
  acquires caller staleAfter disk lock h := by
    obtain ⟨-, htaken⟩ := acquire_ends root caller staleAfter target disk
    obtain ⟨htoken, hreaches⟩ := htaken lock h
    exact ⟨htoken, fun hslot => onRecord_eq_some.2 ⟨hreaches, hslot⟩⟩
  persists _ _ bytes lock disk := (persist_ends root target bytes lock disk).1
  deletes _ _ lock disk := (delete_ends root target lock disk).1
  slot_kept caller staleAfter _ disk hr := (course root target caller staleAfter hr disk).slot
  steady caller staleAfter r disk t hr hrecord hslot := by
    obtain ⟨hkept, hread⟩ :=
      (course root target caller staleAfter hr disk).steady hrecord hslot
    exact ⟨hkept, fun hnot => document_congr (hread hnot)⟩

end ClusterLedger.Backend.Folder
