import ClusterLedger.Proofs.Store.Remote
import ClusterLedger.Proofs.Trace

/-!
# Removing what was read

A conditional removal reads the object, compares it, and then asks the server to remove the version
that it read. A version whose mark is not printable is removed as if the server had sent no mark, so
whatever stands there by then.
-/
namespace ClusterLedger.Store.Endpoint

open Http (Response)

/-- A request with its answer. -/
abbrev Exchange := Program.Event Http.effects

variable {α σ : Type} {e : Endpoint} {key : String} {expected : ByteArray}
  {calls : List Exchange} {result : Result Bool}

/-! ## The course of a removal -/

theorem trace_send_bind {q : Http.Request} {f : Response → Attempt Http.effects α}
    {es : List Exchange} {r : Result α} :
    Attempt.Trace (send q >>= f) es r ↔ (es = [⟨q, none⟩] ∧ r = .error .http) ∨
      ∃ response rest, es = ⟨q, some response⟩ :: rest ∧ Attempt.Trace (f response) rest r := by
  -- The request is the first of the program, so the trace begins with it and its answer.
  apply Program.trace_ask.trans
  constructor
  · rintro ⟨reply, rest, rfl, h⟩
    cases reply with
    | none =>
      obtain ⟨rfl, rfl⟩ := Program.trace_done.1 h
      exact .inl ⟨rfl, rfl⟩
    | some response => exact .inr ⟨response, rest, rfl, h⟩
  · rintro (⟨rfl, rfl⟩ | ⟨response, rest, rfl, h⟩)
    · exact ⟨none, [], rfl, .done _⟩
    · exact ⟨some response, rest, rfl, h⟩

/-- The request to remove a version of an object. -/
def removal (e : Endpoint) (key : String) (version : Option String) : Http.Request :=
  { e.request .delete key with ifMatch := version }

/-- The calls of a removal that is asked for. -/
def pair (e : Endpoint) (key : String) (r : Response) (answer : Option Response) : List Exchange :=
  [⟨e.request .get key, some r⟩, ⟨e.removal key r.version?, answer⟩]

/-- What the answer to the request for removal means. -/
def verdict (q : Http.Request) : Option Response → Result Bool
  | none => .error .http
  | some r =>
    if r.status = 412 ∨ r.status = 404 then .ok false
    else if r.isSuccess then .ok true
    else .error (refused q r)

/-- How a conditional removal goes: it ends with the first answer unless that is the object as it is
expected, and then the version that was read is to be removed. -/
inductive Removal (e : Endpoint) (key : String) (expected : ByteArray) :
    List Exchange → Result Bool → Prop
  | unanswered : Removal e key expected [⟨e.request .get key, none⟩] (.error .http)
  | missing {r : Response} (h : r.status = 404) :
      Removal e key expected [⟨e.request .get key, some r⟩] (.ok false)
  | failed {r : Response} (h : r.isSuccess = false ∨ r.body = none) (error : Error) :
      Removal e key expected [⟨e.request .get key, some r⟩] (.error error)
  | differs {r : Response} {bytes : ByteArray} (h : r.isSuccess = true)
      (hbody : r.body = some bytes) (hne : bytes ≠ expected) :
      Removal e key expected [⟨e.request .get key, some r⟩] (.ok false)
  | asked {r : Response} (h : r.isSuccess = true) (hbody : r.body = some expected)
      (answer : Option Response) :
      Removal e key expected (e.pair key r answer) (verdict (e.removal key r.version?) answer)

theorem trace_deleteVersion {version : Option String} {es : List Exchange} {r : Result Bool} :
    Attempt.Trace (e.deleteVersion key version) es r ↔
      ∃ answer, es = [⟨e.removal key version, answer⟩] ∧
        r = verdict (e.removal key version) answer := by
  have hend (response : Response) (rest : List Exchange) :
      Attempt.Trace (if response.status = 412 ∨ response.status = 404 then pure false
        else if response.isSuccess then pure true
        else throw (refused (e.removal key version) response)) rest r ↔
        rest = [] ∧ r = verdict (e.removal key version) (some response) := by
    rw [verdict]
    split
    · exact Attempt.trace_pure
    · split
      · exact Attempt.trace_pure
      · exact Program.trace_done
  rw [deleteVersion]
  apply trace_send_bind.trans
  constructor
  · rintro (⟨rfl, rfl⟩ | ⟨response, rest, rfl, h⟩)
    · exact ⟨none, rfl, rfl⟩
    · obtain ⟨rfl, rfl⟩ := (hend response rest).1 h
      exact ⟨some response, rfl, rfl⟩
  · rintro ⟨answer, rfl, rfl⟩
    cases answer with
    | none => exact .inl ⟨rfl, rfl⟩
    | some response => exact .inr ⟨response, [], rfl, (hend response []).2 ⟨rfl, rfl⟩⟩

theorem removal_of_trace (h : (e.deleteIfMatches key expected).Trace calls result) :
    e.Removal key expected calls result := by
  rw [deleteIfMatches] at h
  rcases trace_send_bind.1 h with ⟨rfl, rfl⟩ | ⟨response, rest, rfl, hrest⟩
  · exact .unanswered
  clear h
  split at hrest
  · next hmissing =>
    obtain ⟨rfl, rfl⟩ := Attempt.trace_pure.1 hrest
    exact .missing hmissing
  split at hrest
  · next hfailure =>
    obtain ⟨rfl, rfl⟩ := Program.trace_done.1 hrest
    exact .failed (.inl (Bool.eq_false_iff.2 hfailure)) _
  next hsuccess =>
  rw [whole] at hrest
  cases hbody : response.body with
  | none =>
    rw [hbody] at hrest
    obtain ⟨rfl, rfl⟩ := Program.trace_done.1 hrest
    exact .failed (.inr hbody) _
  | some bytes =>
    rw [hbody, pure_bind] at hrest
    split at hrest
    · next hne =>
      obtain ⟨rfl, rfl⟩ := Attempt.trace_pure.1 hrest
      exact .differs (Decidable.not_not.1 hsuccess) hbody hne
    · next hsame =>
      obtain ⟨answer, rfl, rfl⟩ := trace_deleteVersion.1 hrest
      rw [Decidable.not_not.1 hsame] at hbody
      exact .asked (Decidable.not_not.1 hsuccess) hbody answer

/-! ## Conditional removals -/

/-- A removal by way of one reading and at most one request for removal, which is made behind the
reading and exactly if that found what is expected. -/
structure Guarded (e : Endpoint) (key : String) (expected : ByteArray) (calls : List Exchange)
    (result : Result Bool) : Prop where
  gets : (calls.countP fun c => c.1.method = .get) = 1
  deletes : (calls.countP fun c => c.1.method = .delete) ≤ 1
  reads : ∀ before c after, calls = before ++ c :: after → c.1.method = .delete →
    ∃ response, ⟨e.request .get key, some response⟩ ∈ before ∧ response.isSuccess = true ∧
      response.body = some expected ∧ c.1 = e.removal key response.version?
  asks : ∀ response, ⟨e.request .get key, some response⟩ ∈ calls → response.isSuccess = true →
    response.body = some expected → ∃ c ∈ calls, c.1.method = .delete
  removed : result = .ok true ↔ ∃ q response, ⟨q, some response⟩ ∈ calls ∧ q.method = .delete ∧
    response.isSuccess = true
  kept : result = .ok false → (∀ c ∈ calls, c.1.method ≠ .delete) →
    ∃ response, ⟨e.request .get key, some response⟩ ∈ calls ∧
      (response.status = 404 ∨ response.isSuccess = true ∧
        ∃ bytes, response.body = some bytes ∧ bytes ≠ expected)

/-- The request for removal asks for the version whose mark came with the object. -/
def AsksForVersion (calls : List Exchange) : Prop :=
  ∀ read response removal etag, ⟨read, some response⟩ ∈ calls → read.method = .get →
    response.etag = some etag → removal ∈ calls → removal.1.method = .delete →
    removal.1.ifMatch = some etag

theorem verdict_eq_true {q : Http.Request} {answer : Option Response} :
    verdict q answer = .ok true ↔ ∃ response, answer = some response ∧
      response.isSuccess = true := by
  cases answer with
  | none => simp [verdict]
  | some response =>
    rw [verdict]
    split
    · next hstatus =>
      have hfailure : response.isSuccess ≠ true := by
        intro hsuccess
        have hother := status_of_isSuccess hsuccess
        tauto
      simp [hfailure]
    · split
      · next hsuccess => simp [hsuccess]
      · next hfailure => simp [hfailure]

theorem version?_of_etag {r : Response} {etag : String} (h : r.etag = some etag) :
    r.version? = some etag ↔ Http.isVisible etag = true := by
  simp [Http.Response.version?, h]

/-! ### Removals that only read -/

theorem mem_read {reply : Option Response} {c : Exchange}
    (h : c ∈ ([⟨e.request .get key, reply⟩] : List Exchange)) : c.1.method ≠ .delete := by
  cases List.mem_singleton.1 h
  exact nofun

/-- Without a request for removal there is only the answer to the reading to account for. -/
theorem guarded_of_read {reply : Option Response} (hremoved : result ≠ .ok true)
    (hends : ∀ response, reply = some response → response.isSuccess = true →
      response.body ≠ some expected)
    (hkept : result = .ok false → ∃ response, reply = some response ∧
      (response.status = 404 ∨ response.isSuccess = true ∧
        ∃ bytes, response.body = some bytes ∧ bytes ≠ expected)) :
    e.Guarded key expected [⟨e.request .get key, reply⟩] result := by
  constructor
  case gets => rfl
  case deletes => simp [request]
  case reads =>
    intro before c after hcalls hdelete
    have hmem : c ∈ before ++ c :: after := List.mem_append_right before List.mem_cons_self
    rw [← hcalls] at hmem
    exact absurd hdelete (mem_read hmem)
  case asks =>
    intro response hmem hsuccess hbody
    cases List.mem_singleton.1 hmem
    exact absurd hbody (hends response rfl hsuccess)
  case removed =>
    apply iff_of_false hremoved
    rintro ⟨q, response, hmem, hdelete, -⟩
    exact mem_read hmem hdelete
  case kept =>
    intro hresult _
    obtain ⟨response, rfl, h⟩ := hkept hresult
    exact ⟨response, List.mem_singleton_self _, h⟩

/-! ### Removals that read and remove -/

section Pair

variable {r : Response} {answer : Option Response} {c : Exchange}

theorem mem_pair_get {q : Http.Request} {response : Response}
    (h : ⟨q, some response⟩ ∈ e.pair key r answer) (hq : q.method = .get) : response = r := by
  rcases List.mem_cons.1 h with he | h
  · cases he
    rfl
  · cases List.mem_singleton.1 h
    cases hq

theorem mem_pair_delete (h : c ∈ e.pair key r answer) (hc : c.1.method = .delete) :
    c = ⟨e.removal key r.version?, answer⟩ := by
  rcases List.mem_cons.1 h with rfl | h
  · cases hc
  · exact List.mem_singleton.1 h

theorem guarded_of_pair (h : r.isSuccess = true) (hbody : r.body = some expected) :
    e.Guarded key expected (e.pair key r answer) (verdict (e.removal key r.version?) answer) := by
  constructor
  case gets => rfl
  case deletes => exact Nat.le_refl 1
  case reads =>
    intro before c after hcalls hdelete
    have hmem : c ∈ before ++ c :: after := List.mem_append_right before List.mem_cons_self
    rw [← hcalls] at hmem
    have hc := mem_pair_delete hmem hdelete
    refine ⟨r, ?_, h, hbody, congrArg Sigma.fst hc⟩
    cases before with
    | nil =>
      cases hcalls
      cases hdelete
    | cons first before =>
      cases (List.cons.inj hcalls).1
      exact List.mem_cons_self
  case asks => exact fun _ _ _ _ => ⟨_, List.mem_cons_of_mem _ List.mem_cons_self, rfl⟩
  case removed =>
    apply verdict_eq_true.trans
    constructor
    · rintro ⟨response, rfl, hsuccess⟩
      have hmem : ⟨e.removal key r.version?, some response⟩ ∈ e.pair key r (some response) :=
        List.mem_cons_of_mem _ List.mem_cons_self
      exact ⟨e.removal key r.version?, response, hmem, rfl, hsuccess⟩
    · rintro ⟨q, response, hmem, hdelete, hsuccess⟩
      cases mem_pair_delete hmem hdelete
      exact ⟨response, rfl, hsuccess⟩
  case kept =>
    intro _ hnone
    exact absurd rfl (hnone ⟨e.removal key r.version?, answer⟩
      (List.mem_cons_of_mem _ List.mem_cons_self))

end Pair

theorem Removal.guarded (h : e.Removal key expected calls result) :
    e.Guarded key expected calls result := by
  cases h with
  | unanswered => exact guarded_of_read nofun nofun nofun
  | @missing r h =>
    refine guarded_of_read nofun ?_ ?_
    · rintro _ ⟨⟩ hsuccess
      exact absurd h (status_of_isSuccess hsuccess).1
    · exact fun _ => ⟨r, rfl, .inl h⟩
  | @failed r h error =>
    refine guarded_of_read nofun ?_ ?_
    · rintro _ ⟨⟩ hsuccess hbody
      simp [hsuccess, hbody] at h
    · exact nofun
  | @differs r bytes h hbody hne =>
    refine guarded_of_read nofun ?_ ?_
    · rintro _ ⟨⟩ _ hsame
      rw [hbody] at hsame
      exact hne (Option.some.inj hsame)
    · exact fun _ => ⟨r, rfl, .inr ⟨h, bytes, hbody, hne⟩⟩
  | asked h hbody answer => exact guarded_of_pair h hbody

/-- All marks of objects that are to be removed can be sent back. -/
def MarksVisible (calls : List Exchange) : Prop :=
  ∀ read response etag, ⟨read, some response⟩ ∈ calls → read.method = .get →
    response.etag = some etag → (∃ c ∈ calls, c.1.method = .delete) → Http.isVisible etag = true

theorem asksForVersion_of_read {calls : List Exchange} (h : ∀ c ∈ calls, c.1.method ≠ .delete) :
    AsksForVersion calls ↔ MarksVisible calls := by
  apply iff_of_true
  · intro _ _ removal _ _ _ _ hmem hdelete
    exact absurd hdelete (h removal hmem)
  · rintro _ _ _ _ _ _ ⟨c, hmem, hdelete⟩
    exact absurd hdelete (h c hmem)

theorem asksForVersion_pair {r : Response} {answer : Option Response} :
    AsksForVersion (e.pair key r answer) ↔ MarksVisible (e.pair key r answer) := by
  constructor
  · rintro hasks read response etag hread hget hetag ⟨c, hmem, hdelete⟩
    have hversion := hasks read response c etag hread hget hetag hmem hdelete
    rw [mem_pair_delete hmem hdelete] at hversion
    rw [mem_pair_get hread hget] at hetag
    exact (version?_of_etag hetag).1 hversion
  · intro hvisible read response c etag hread hget hetag hmem hdelete
    have hmark := hvisible read response etag hread hget hetag ⟨c, hmem, hdelete⟩
    rw [mem_pair_get hread hget] at hetag
    rw [mem_pair_delete hmem hdelete]
    exact (version?_of_etag hetag).2 hmark

theorem Removal.asksForVersion_iff (h : e.Removal key expected calls result) :
    AsksForVersion calls ↔ MarksVisible calls := by
  cases h with
  | asked h hbody answer => exact asksForVersion_pair
  | _ => exact asksForVersion_of_read fun _ => mem_read

/-- A conditional removal is one, whatever the server answers, and it asks for the version that it
read exactly if the mark of that version can be sent back, or the object is not to be removed. -/
theorem deleteIfMatches_guarded (e : Endpoint) (key : String) (expected : ByteArray)
    (answer : (q : Http.Request) → σ → Option Response × σ) (s : σ) :
    e.Guarded key expected ((e.deleteIfMatches key expected).program.calls answer s)
      ((e.deleteIfMatches key expected).run answer s).1 ∧
    (AsksForVersion ((e.deleteIfMatches key expected).program.calls answer s) ↔
      MarksVisible ((e.deleteIfMatches key expected).program.calls answer s)) := by
  have hremoval := removal_of_trace (Program.trace_calls (E := Http.effects) answer
    (e.deleteIfMatches key expected).program s)
  exact ⟨hremoval.guarded, hremoval.asksForVersion_iff⟩

/-- A server that has an object with a mark that is no ASCII, and removes what it is told to. -/
def accented : Http.Request → Unit → Option Response × Unit
  | q, _ =>
    if q.method = .get then (some ⟨200, some "\"é\"", some "v".toUTF8⟩, ())
    else (some ⟨204, none, some ByteArray.empty⟩, ())

def plain : Endpoint :=
  ⟨"http://localhost", none⟩

/-- The object is removed whatever it is by then. -/
theorem deleteIfMatches_accented :
    (plain.deleteIfMatches "k" "v".toUTF8).program.calls accented () =
      [⟨plain.request .get "k", some ⟨200, some "\"é\"", some "v".toUTF8⟩⟩,
        ⟨plain.request .delete "k", some ⟨204, none, some ByteArray.empty⟩⟩] ∧
    ((plain.deleteIfMatches "k" "v".toUTF8).run accented ()).1 = .ok true ∧
    ¬AsksForVersion ((plain.deleteIfMatches "k" "v".toUTF8).program.calls accented ()) := by
  have hcalls : (plain.deleteIfMatches "k" "v".toUTF8).program.calls accented () =
      [⟨plain.request .get "k", some ⟨200, some "\"é\"", some "v".toUTF8⟩⟩,
        ⟨plain.request .delete "k", some ⟨204, none, some ByteArray.empty⟩⟩] := by
    rfl
  refine ⟨hcalls, rfl, ?_⟩
  rw [hcalls]
  intro hasks
  have hversion := hasks (plain.request .get "k") _ ⟨plain.request .delete "k", _⟩ "\"é\""
    List.mem_cons_self rfl rfl (List.mem_cons_of_mem _ List.mem_cons_self) rfl
  cases hversion

end ClusterLedger.Store.Endpoint
