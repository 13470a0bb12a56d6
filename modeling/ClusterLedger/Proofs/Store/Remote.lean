import ClusterLedger.Proofs.Attempt
import ClusterLedger.Proofs.Store.Server

/-!
# A store behind HTTP and a store in memory

Request by request, a store behind a server that conforms yields what a store in memory yields, and
both have the same objects then.
-/
namespace ClusterLedger.Store

open Attempt (Ends ends_bind_of_run ends_pure)

/-- Carries out requests one after another and notes what they yield. -/
def carryOut {σ : Type} (answer : (r : Request) → σ → effects.Reply r × σ) :
    List Request → σ → List (Program.Event effects) × σ
  | [], s => ([], s)
  | r :: rest, s =>
    let (events, s') := carryOut answer rest (answer r s).2
    (⟨r, (answer r s).1⟩ :: events, s')

/-- The keys of a request are plain; the objects can be listed as a whole. -/
def Request.IsPlain : Request → Prop
  | get key | put key _ | putIfAbsent key _ | delete key | deleteIfMatches key _ | contains key =>
    IsPlainKey key
  | list path => path = "" ∨ IsPlainKey path

namespace Endpoint

variable {σ : Type} {e : Endpoint} {serve : Http.Request → σ → Http.Response × σ}
  {stored : σ → Dict Stored} {s : σ} {key path : String}

/-- A server always answers. -/
def respond (serve : Http.Request → σ → Http.Response × σ) (q : Http.effects.Request) (s : σ) :
    Http.effects.Reply q × σ :=
  (some (serve q s).1, (serve q s).2)

/-- What a store behind a server yields. -/
def answer (e : Endpoint) (serve : Http.Request → σ → Http.Response × σ) (r : Request) (s : σ) :
    effects.Reply r × σ :=
  (e.perform r).run (respond serve) s

/-- The request yields what it would in memory, and the objects are those that it would leave. -/
def Mirrors (e : Endpoint) (serve : Http.Request → σ → Http.Response × σ)
    (stored : σ → Dict Stored) (r : Request) (s : σ) : Prop :=
  (e.perform r).Ends (respond serve) s fun reply s' =>
    reply = (Memory.answer r (contents (stored s))).1 ∧
      contents (stored s') = (Memory.answer r (contents (stored s))).2

/-! ## Requests that are sent -/

theorem send_run (q : Http.Request) (s : σ) :
    (send q).run (respond serve) s = (.ok (serve q s).1, (serve q s).2) :=
  rfl

theorem whole_run {r : Http.Response} {bytes : ByteArray} (h : r.body = some bytes) (s : σ) :
    (whole r).run (respond serve) s = (.ok bytes, s) := by
  rw [whole, h]
  rfl

theorem isSuccess_of_status {r : Http.Response} (h : r.status = 200) : r.isSuccess = true := by
  simp [Http.Response.isSuccess, h]

theorem status_of_isSuccess {r : Http.Response} (h : r.isSuccess = true) :
    r.status ≠ 404 ∧ r.status ≠ 412 := by
  simp only [Http.Response.isSuccess, decide_eq_true_eq] at h
  omega

/-- A path without a slash in front is sent as it is. -/
theorem addresses {q : Http.Request} (hbase : '#' ∉ e.baseUrl.toList) (hpath : '#' ∉ path.toList)
    (hhead : path.toList.head? ≠ some '/') (hurl : q.url = e.url path)
    (hauthorization : q.authorization = e.token.map ("Bearer " ++ ·)) : e.Addresses q path where
  resource := by
    have htrim : Text.trimStart '/' path = path := by
      rw [Text.trimStart, Text.dropWhile_of_head?, String.ofList_toList]
      intro c hc
      exact beq_false_of_ne fun he => hhead (he ▸ hc)
    have hmark : '#' ∉ (e.baseUrl ++ "/" ++ path).toList := by
      simp [hbase, hpath]
    rw [Http.Request.resource, hurl, url, htrim, ← upToMark,
      ← List.append_nil (String.toList _), upToMark_append hmark, upToMark, List.takeWhile_nil,
      List.append_nil, String.ofList_toList]
  authorization := hauthorization

theorem addresses_key {q : Http.Request} (hbase : '#' ∉ e.baseUrl.toList) (h : IsPlainKey key)
    (hurl : q.url = e.url key) (hauthorization : q.authorization = e.token.map ("Bearer " ++ ·)) :
    e.Addresses q key := by
  apply addresses hbase (h.not_mem (by decide) (by decide)) _ hurl hauthorization
  obtain ⟨c, cs, hcs, hc⟩ := h.begins
  rw [hcs]
  simpa using hc

theorem folder_of_path (h : path = "" ∨ IsPlainKey path) :
    IsFolder (folderKey path) ∧ '#' ∉ (folderKey path).toList ∧
      (folderKey path).toList.head? ≠ some '/' := by
  rcases h with rfl | h
  · exact ⟨.all, by decide, by decide⟩
  · obtain ⟨c, cs, hcs, hc⟩ := h.begins
    rw [h.folderKey_eq]
    refine ⟨.below h, ?_, ?_⟩
    · simp [h.not_mem (c := '#') (by decide) (by decide)]
    · simpa [hcs] using hc

/-! ## One request -/

section

variable (hbase : '#' ∉ e.baseUrl.toList) (h : Conforms e serve stored)
include hbase h

theorem mirrors_get (hkey : IsPlainKey key) : e.Mirrors serve stored (.get key) s := by
  have haddress := addresses_key (q := e.request .get key) hbase hkey rfl rfl
  apply ends_bind_of_run (send_run _ s)
  cases hget : (stored s).get? key with
  | none =>
    obtain ⟨hstatus, hstored⟩ := h.missing hkey haddress ⟨.inl rfl, rfl, rfl⟩ hget
    rw [if_pos hstatus]
    refine ends_pure.2 ⟨?_, by rw [hstored]; rfl⟩
    rw [Memory.answer, get?_contents, hget]
    rfl
  | some o =>
    obtain ⟨hstatus, hbody, hstored⟩ := h.found hkey haddress ⟨.inl rfl, rfl, rfl⟩ hget
    rw [if_neg (by omega), if_pos (isSuccess_of_status hstatus)]
    apply ends_bind_of_run (whole_run (hbody rfl).1 _)
    refine ends_pure.2 ⟨?_, by rw [hstored]; rfl⟩
    rw [Memory.answer, get?_contents, hget]
    rfl

theorem mirrors_contains (hkey : IsPlainKey key) : e.Mirrors serve stored (.contains key) s := by
  have haddress := addresses_key (q := e.request .head key) hbase hkey rfl rfl
  apply ends_bind_of_run (send_run _ s)
  cases hget : (stored s).get? key with
  | none =>
    obtain ⟨hstatus, hstored⟩ := h.missing hkey haddress ⟨.inr rfl, rfl, rfl⟩ hget
    rw [if_pos hstatus]
    refine ends_pure.2 ⟨?_, by rw [hstored]; rfl⟩
    rw [Memory.answer, contains_contents, Dict.contains_eq_false.2 hget]
  | some o =>
    obtain ⟨hstatus, -, hstored⟩ := h.found hkey haddress ⟨.inr rfl, rfl, rfl⟩ hget
    rw [if_neg (by omega), if_pos (isSuccess_of_status hstatus)]
    refine ends_pure.2 ⟨?_, by rw [hstored]; rfl⟩
    rw [Memory.answer, contains_contents, Dict.contains_eq_true.2 ⟨o, hget⟩]

theorem mirrors_put (hkey : IsPlainKey key) (bytes : ByteArray) :
    e.Mirrors serve stored (.put key bytes) s := by
  have haddress := addresses_key (q := { e.request .put key with body := some bytes }) hbase hkey
    rfl rfl
  apply ends_bind_of_run (send_run _ s)
  obtain ⟨hsuccess, etag, hstored⟩ := h.written (s := s) hkey haddress ⟨rfl, rfl, rfl⟩ (.inl rfl)
  rw [if_neg (not_not_intro hsuccess)]
  refine ends_pure.2 ⟨rfl, ?_⟩
  rw [hstored, contents_insert]
  rfl

theorem mirrors_putIfAbsent (hkey : IsPlainKey key) (bytes : ByteArray) :
    e.Mirrors serve stored (.putIfAbsent key bytes) s := by
  have haddress := addresses_key (q := { e.request .put key with
    ifNoneMatch := some "*", body := some bytes }) hbase hkey rfl rfl
  apply ends_bind_of_run (send_run _ s)
  cases hget : (stored s).get? key with
  | none =>
    obtain ⟨hsuccess, etag, hstored⟩ :=
      h.written hkey haddress ⟨rfl, rfl, rfl⟩ (.inr ⟨rfl, hget⟩)
    rw [if_neg (status_of_isSuccess hsuccess).2, if_pos hsuccess]
    have hfree : (contents (stored s)).contains key = false := by
      rw [contains_contents, Dict.contains_eq_false.2 hget]
    refine ends_pure.2 ?_
    rw [Memory.answer, if_neg (by simp [hfree]), hstored, contents_insert]
    exact ⟨rfl, rfl⟩
  | some o =>
    obtain ⟨hstatus, hstored⟩ := h.taken hkey haddress ⟨rfl, rfl, rfl⟩ rfl hget
    rw [if_pos hstatus]
    have hthere : (contents (stored s)).contains key = true := by
      rw [contains_contents, Dict.contains_eq_true.2 ⟨o, hget⟩]
    refine ends_pure.2 ?_
    rw [Memory.answer, if_pos hthere, hstored]
    exact ⟨rfl, rfl⟩

theorem mirrors_delete (hkey : IsPlainKey key) : e.Mirrors serve stored (.delete key) s := by
  have haddress := addresses_key (q := e.request .delete key) hbase hkey rfl rfl
  apply ends_bind_of_run (send_run _ s)
  cases hget : (stored s).get? key with
  | none =>
    obtain ⟨hstatus, hstored⟩ := h.gone hkey haddress ⟨rfl, rfl⟩ hget
    have hstatus : (serve (e.request .delete key) s).1.status = 404 :=
      hstatus.resolve_right fun hmatch => hmatch.1 rfl
    rw [if_neg fun hne => hne.1 hstatus]
    refine ends_pure.2 ⟨rfl, ?_⟩
    rw [hstored, Memory.answer, Dict.erase_of_get? (by rw [get?_contents, hget]; rfl)]
  | some o =>
    obtain ⟨hsuccess, hstored⟩ := h.removed hkey haddress ⟨rfl, rfl⟩ hget (.inl rfl)
    rw [if_neg fun hne => hne.2 hsuccess]
    refine ends_pure.2 ⟨rfl, ?_⟩
    rw [hstored, contents_erase]
    rfl

/-- What was read can be removed in the version that was read. -/
theorem deleteVersion_run (hkey : IsPlainKey key) {o : Stored}
    (hget : (stored s).get? key = some o) {version : Option String}
    (hversion : version = none ∨ version = o.etag) :
    (e.deleteVersion key version).Ends (respond serve) s fun reply s' =>
      reply = .ok true ∧ contents (stored s') = (contents (stored s)).erase key := by
  have haddress := addresses_key (q := { e.request .delete key with ifMatch := version }) hbase hkey
    rfl rfl
  obtain ⟨hsuccess, hstored⟩ := h.removed hkey haddress ⟨rfl, rfl⟩ hget hversion
  obtain ⟨hfound, hmatch⟩ := status_of_isSuccess hsuccess
  apply ends_bind_of_run (send_run _ s)
  rw [if_neg (not_or.2 ⟨hmatch, hfound⟩), if_pos hsuccess]
  refine ends_pure.2 ⟨rfl, ?_⟩
  rw [hstored, contents_erase]

theorem mirrors_deleteIfMatches (hkey : IsPlainKey key) (expected : ByteArray) :
    e.Mirrors serve stored (.deleteIfMatches key expected) s := by
  have haddress := addresses_key (q := e.request .get key) hbase hkey rfl rfl
  have hanswer : Memory.answer (.deleteIfMatches key expected) (contents (stored s)) =
      if ((stored s).get? key).map Stored.bytes = some expected then
        (.ok true, (contents (stored s)).erase key)
      else (.ok false, contents (stored s)) := by
    rw [Memory.answer, get?_contents]
  rw [Mirrors, hanswer]
  apply ends_bind_of_run (send_run _ s)
  cases hget : (stored s).get? key with
  | none =>
    obtain ⟨hstatus, hstored⟩ := h.missing hkey haddress ⟨.inl rfl, rfl, rfl⟩ hget
    rw [if_pos hstatus, if_neg nofun]
    exact ends_pure.2 ⟨rfl, by rw [hstored]⟩
  | some o =>
    obtain ⟨hstatus, hbody, hstored⟩ := h.found hkey haddress ⟨.inl rfl, rfl, rfl⟩ hget
    obtain ⟨hbytes, hetag⟩ := hbody rfl
    rw [if_neg (by omega), if_neg (not_not_intro (isSuccess_of_status hstatus))]
    apply ends_bind_of_run (whole_run hbytes _)
    have hsome : Option.map Stored.bytes (some o) = some expected ↔ o.bytes = expected := by simp
    by_cases hexpected : o.bytes = expected
    · rw [if_neg (not_not_intro hexpected), if_pos (hsome.2 hexpected)]
      rw [← hstored] at hget ⊢
      apply deleteVersion_run hbase h hkey hget
      rw [Http.Response.version?, hetag]
      cases o.etag with
      | none => exact .inl rfl
      | some version =>
        by_cases hvisible : Http.isVisible version = true
        · exact .inr (by simp [hvisible])
        · exact .inl (by simp [hvisible])
    · rw [if_pos hexpected, if_neg (mt hsome.1 hexpected)]
      exact ends_pure.2 ⟨rfl, by rw [hstored]⟩

theorem mirrors_list (hpath : path = "" ∨ IsPlainKey path) :
    e.Mirrors serve stored (.list path) s := by
  obtain ⟨hfolder, hmark, hhead⟩ := folder_of_path hpath
  have haddress := addresses (q := e.request .get (folderKey path)) hbase hmark hhead rfl rfl
  obtain ⟨hstored, children, hchildren, hnone, hsome⟩ :=
    h.listed (s := s) hfolder haddress ⟨.inl rfl, rfl, rfl⟩ rfl
  have hlist : Memory.list (contents (stored s)) path = children :=
    (Memory.listsChildren_list _ path).unique
      (hchildren.of_contains (contains_contents (stored s)))
  have hanswer : Memory.answer (.list path) (contents (stored s)) =
      (.ok children, contents (stored s)) := by
    rw [Memory.answer, hlist]
  rw [Mirrors, hanswer]
  apply ends_bind_of_run (send_run _ s)
  by_cases hempty : children = []
  · rw [if_pos (hnone hempty), hempty]
    exact ends_pure.2 ⟨rfl, by rw [hstored]⟩
  · obtain ⟨hstatus, text, hlines, hbody⟩ := hsome hempty
    rw [if_neg (by omega), if_neg (not_not_intro (isSuccess_of_status hstatus))]
    apply ends_bind_of_run (whole_run hbody _)
    rw [bodyText_of_lines hlines, readListing_of_lines hlines]
    exact Attempt.ends_ofResult.2 ⟨rfl, by rw [hstored]⟩

/-- One request of the store yields what it does in memory. -/
theorem mirrors {r : Request} (hplain : r.IsPlain) : e.Mirrors serve stored r s := by
  cases r with
  | get key => exact mirrors_get hbase h hplain
  | put key bytes => exact mirrors_put hbase h hplain bytes
  | putIfAbsent key bytes => exact mirrors_putIfAbsent hbase h hplain bytes
  | delete key => exact mirrors_delete hbase h hplain
  | deleteIfMatches key expected => exact mirrors_deleteIfMatches hbase h hplain expected
  | list path => exact mirrors_list hbase h hplain
  | contains key => exact mirrors_contains hbase h hplain

end

/-! ## Requests one after another -/

/-- Whatever is asked one after another, a store behind a server that conforms answers as a store
in memory with the same objects, and they have the same objects afterwards. -/
theorem carryOut_mirrors (hbase : '#' ∉ e.baseUrl.toList) (h : Conforms e serve stored)
    {rs : List Request} (hplain : ∀ r ∈ rs, r.IsPlain) (s : σ) :
    (carryOut (e.answer serve) rs s).1 = (carryOut Memory.answer rs (contents (stored s))).1 ∧
      contents (stored (carryOut (e.answer serve) rs s).2) =
        (carryOut Memory.answer rs (contents (stored s))).2 := by
  induction rs generalizing s with
  | nil => exact ⟨rfl, rfl⟩
  | cons r rest ih =>
    obtain ⟨hreply, hcontents⟩ := mirrors hbase h (s := s) (hplain r List.mem_cons_self)
    obtain ⟨hevents, hlast⟩ :=
      ih (fun r' hr' => hplain r' (List.mem_cons_of_mem _ hr')) (e.answer serve r s).2
    rw [answer, hcontents] at hevents hlast
    constructor
    · simp only [carryOut]
      rw [answer, hreply, hevents]
    · exact hlast

/-- A lock that is taken once, found in the listings, and removed by what was read. -/
def lockRequests : List Request :=
  [.putIfAbsent "s/prod/lock.json" "a".toUTF8, .putIfAbsent "s/prod/lock.json" "b".toUTF8,
    .list "", .list "s", .get "s/prod/lock.json", .deleteIfMatches "s/prod/lock.json" "b".toUTF8,
    .deleteIfMatches "s/prod/lock.json" "a".toUTF8, .contains "s/prod/lock.json"]

theorem lockRequests_plain : ∀ r ∈ lockRequests, r.IsPlain := by
  have hs : IsPlainSegment "s" :=
    ⟨by decide, List.all_eq_true.1 (by decide), by decide, by decide⟩
  have hprod : IsPlainSegment "prod" :=
    ⟨by decide, List.all_eq_true.1 (by decide), by decide, by decide⟩
  have hlock : IsPlainSegment "lock.json" :=
    ⟨by decide, List.all_eq_true.1 (by decide), by decide, by decide⟩
  have hkey : IsPlainKey "s/prod/lock.json" := .cons hs (.cons hprod (.segment hlock))
  have hlist : IsPlainKey "s" := .segment hs
  simp [lockRequests, Request.IsPlain, hkey, hlist]

theorem carryOut_mirrors_shelf :
    let e := Endpoint.ofUrl "http://localhost/" (some "secret")
    '#' ∉ e.baseUrl.toList ∧ Conforms e (Shelf.serve e) Shelf.objects ∧
      (∀ r ∈ lockRequests, r.IsPlain) ∧
      (carryOut (e.answer (Shelf.serve e)) lockRequests ⟨{}, 0⟩).1 =
        (carryOut Memory.answer lockRequests (contents {})).1 ∧
      contents (carryOut (e.answer (Shelf.serve e)) lockRequests ⟨{}, 0⟩).2.objects =
        (carryOut Memory.answer lockRequests (contents {})).2 := by
  intro e
  have hbase : '#' ∉ e.baseUrl.toList := by decide
  have hconforms := Shelf.conforms_serve e
  exact ⟨hbase, hconforms, lockRequests_plain,
    carryOut_mirrors hbase hconforms lockRequests_plain ⟨{}, 0⟩⟩

end Endpoint

end ClusterLedger.Store
