import ClusterLedger.Proofs.Backend.Keys
import ClusterLedger.Proofs.Store.Requests
import ClusterLedger.Store.Http

/-!
# Addresses of objects

A key stands behind the base address as it is, so a target that holds the mark of a fragment keeps
the rest of its key from the server. With a client that sends the text in front of the mark as it
stands, only such targets share an address with others.
-/
namespace ClusterLedger.Store

open Attempt (Asks asks_pure asks_throw asks_request)
open Backend (Objects)
open Backend.Objects (objectChars placeChars toList_keyOf)

namespace Endpoint

variable {e : Endpoint} {α : Type} {key : String} {o : Objects}

/-! ## What is sent for an object -/

/-- All requests go to the address of a key. -/
def GoesTo (e : Endpoint) (key : String) (a : Attempt Http.effects α) : Prop :=
  a.Asks fun q : Http.Request => q.url = e.url key

theorem goesTo_send {q : Http.Request} (h : q.url = e.url key) : e.GoesTo key (send q) := by
  refine Asks.bind (asks_request h) fun reply => ?_
  cases reply with
  | none => exact asks_throw _
  | some response => exact asks_pure _

theorem goesTo_whole (r : Http.Response) : e.GoesTo key (whole r) := by
  rw [whole]
  cases r.body with
  | none => exact asks_throw _
  | some bytes => exact asks_pure _

theorem goesTo_deleteVersion (version : Option String) :
    e.GoesTo key (e.deleteVersion key version) :=
  Asks.bind (goesTo_send rfl) fun _ => .ite (asks_pure _) (.ite (asks_pure _) (asks_throw _))

theorem goesTo_perform {r : Request} (h : r.IsAbout key) : e.GoesTo key (e.perform r) := by
  cases r with
  | list path => exact h.elim
  | get k =>
    obtain rfl : k = key := h
    refine Asks.bind (goesTo_send rfl) fun r => .ite (asks_pure _) (.ite ?_ (asks_throw _))
    exact Asks.bind (goesTo_whole r) fun bytes => asks_pure _
  | put k bytes =>
    obtain rfl : k = key := h
    exact Asks.bind (goesTo_send rfl) fun r => .ite (asks_throw _) (asks_pure _)
  | putIfAbsent k bytes =>
    obtain rfl : k = key := h
    exact Asks.bind (goesTo_send rfl) fun r =>
      .ite (asks_pure _) (.ite (asks_pure _) (asks_throw _))
  | delete k =>
    obtain rfl : k = key := h
    exact Asks.bind (goesTo_send rfl) fun r => .ite (asks_throw _) (asks_pure _)
  | deleteIfMatches k expected =>
    obtain rfl : k = key := h
    refine Asks.bind (goesTo_send rfl) fun r => .ite (asks_pure _) (.ite (asks_throw _) ?_)
    exact Asks.bind (goesTo_whole r) fun bytes => .ite (asks_pure _) (goesTo_deleteVersion _)
  | contains k =>
    obtain rfl : k = key := h
    exact Asks.bind (goesTo_send rfl) fun r =>
      .ite (asks_pure _) (.ite (asks_pure _) (asks_throw _))

/-- A request that is sent, whatever is answered, when something is done with an object. -/
def Sends (e : Endpoint) (key : String) (q : Http.Request) : Prop :=
  ∃ (r : Request) (es : List (Program.Event Http.effects)) (result : Result r.Yield),
    r.IsAbout key ∧ (e.perform r).Trace es result ∧ ∃ event ∈ es, event.1 = q

theorem Sends.url_eq {q : Http.Request} (h : e.Sends key q) : q.url = e.url key := by
  obtain ⟨r, es, result, hr, htrace, event, hmem, rfl⟩ := h
  exact goesTo_perform hr es result htrace event hmem

theorem sends_get (e : Endpoint) (key : String) : e.Sends key (e.request .get key) := by
  have htrace : (e.perform (.get key)).Trace [⟨e.request .get key, none⟩] (.error .http) :=
    .ask (E := Http.effects) none (.done _)
  exact ⟨.get key, _, _, rfl, htrace, _, List.mem_singleton_self _, rfl⟩

/-! ## The address of an object -/

/-- The place of the targets begins with no slash. -/
theorem head?_path (path : String) : (Objects.ofPath path).path.toList.head? ≠ some '/' := by
  intro h
  rw [Objects.ofPath, Text.trimBoth, String.toList_ofList, Text.dropEnds] at h
  have hhead := List.head?_dropWhile_not (· == '/') path.toList
  rw [Text.head?_dropEnd h] at hhead
  cases hhead

theorem trimStart_keyOf {path target : String} (h : Target.isValid target = true) (file : String) :
    Text.trimStart '/' ((Objects.ofPath path).keyOf target file) =
      (Objects.ofPath path).keyOf target file := by
  rw [Text.trimStart, Text.dropWhile_of_head?, String.ofList_toList]
  intro c hc
  rw [toList_keyOf, placeChars] at hc
  split at hc
  · rw [List.nil_append, objectChars] at hc
    cases hlist : target.toList with
    | nil => exact absurd hlist (Target.toList_ne_nil_of_isValid h)
    | cons a rest =>
      rw [hlist] at hc
      cases hc
      have hslash := Target.not_mem_of_isValid h
      rw [hlist, List.mem_cons, not_or] at hslash
      exact beq_false_of_ne (Ne.symm hslash.1)
  · next hpath =>
    have hhead := head?_path path
    cases hlist : (Objects.ofPath path).path.toList with
    | nil => exact absurd (String.toList_eq_nil_iff.1 hlist) hpath
    | cons a rest =>
      rw [hlist] at hc hhead
      cases hc
      exact beq_false_of_ne fun he => hhead (congrArg some he)

/-- Everything up to the mark of a fragment. -/
def upToMark (cs : List Char) : List Char :=
  cs.takeWhile (· ≠ '#')

theorem upToMark_append {cs ds : List Char} (h : '#' ∉ cs) :
    upToMark (cs ++ ds) = cs ++ upToMark ds := by
  refine List.takeWhile_append_of_pos fun c hc => ?_
  exact decide_eq_true fun he => h (he ▸ hc)

theorem upToMark_append_of_mem {cs : List Char} (h : '#' ∈ cs) (ds : List Char) :
    upToMark (cs ++ ds) = upToMark cs := by
  induction cs with
  | nil => cases h
  | cons c cs ih =>
    by_cases hc : c = '#'
    · simp [upToMark, hc]
    · have hmem : '#' ∈ cs := (List.mem_cons.1 h).resolve_left (Ne.symm hc)
      simpa [upToMark, hc] using ih hmem

theorem not_mem_trimEnd {c d : Char} {s : String} (h : c ∉ s.toList) :
    c ∉ (Text.trimEnd d s).toList := by
  intro hmem
  rw [Text.trimEnd, String.toList_ofList, Text.dropEnd, List.mem_reverse] at hmem
  exact h (List.mem_reverse.1 ((List.dropWhile_sublist _).subset hmem))

theorem not_mem_trimBoth {c d : Char} {s : String} (h : c ∉ s.toList) :
    c ∉ (Text.trimBoth d s).toList := by
  intro hmem
  rw [Text.trimBoth, String.toList_ofList, Text.dropEnds, Text.dropEnd, List.mem_reverse] at hmem
  have hmem := List.mem_reverse.1 ((List.dropWhile_sublist _).subset hmem)
  exact h ((List.dropWhile_sublist _).subset hmem)

/-- What is asked of the server for an object: the place, and the object up to the mark. -/
theorem Sends.resource {url path target file : String} {token : Option String} {q : Http.Request}
    (hurl : '#' ∉ url.toList) (hpath : '#' ∉ path.toList) (htarget : Target.isValid target = true)
    (h : (ofUrl url token).Sends ((Objects.ofPath path).keyOf target file) q) :
    q.resource.toList = (Text.trimEnd '/' url).toList ++ '/' :: placeChars (Objects.ofPath path) ++
      upToMark (objectChars target file) := by
  have hplace : '#' ∉ (Text.trimEnd '/' url).toList ++ '/' :: placeChars (Objects.ofPath path) := by
    have hslash : '#' ≠ '/' := by decide
    have hplace : '#' ∉ placeChars (Objects.ofPath path) := by
      rw [placeChars]
      split
      · exact List.not_mem_nil
      · rw [List.mem_append, not_or]
        exact ⟨not_mem_trimBoth hpath, by decide⟩
    simp only [List.mem_append, List.mem_cons, not_or]
    exact ⟨not_mem_trimEnd hurl, hslash, hplace⟩
  have hchars : q.url.toList = (Text.trimEnd '/' url).toList ++
      '/' :: placeChars (Objects.ofPath path) ++ objectChars target file := by
    rw [h.url_eq, Endpoint.url, trimStart_keyOf htarget]
    simp [toList_keyOf, ofUrl]
  rw [Http.Request.resource, String.toList_ofList, hchars, ← upToMark, upToMark_append hplace]

/-! ## Addresses that are shared -/

/-- Two files of targets are the same up to the mark of a fragment only if it stands in both
targets, which are the same up to there. -/
theorem upToMark_objectChars {target target' file file' : String}
    (htarget : '/' ∉ target.toList) (htarget' : '/' ∉ target'.toList) (hfile : '#' ∉ file.toList)
    (hfile' : '#' ∉ file'.toList) (hne : (target, file) ≠ (target', file')) :
    upToMark (objectChars target file) = upToMark (objectChars target' file') ↔
      '#' ∈ target.toList ∧ '#' ∈ target'.toList ∧
        upToMark target.toList = upToMark target'.toList := by
  have hmarked {t f : String} (ht : '#' ∈ t.toList) :
      upToMark (objectChars t f) = upToMark t.toList := upToMark_append_of_mem ht _
  have hwhole {t f : String} (ht : '#' ∉ t.toList) (hf : '#' ∉ f.toList) :
      upToMark (objectChars t f) = objectChars t f := by
    have hmark : '#' ∉ objectChars t f := by simp [objectChars, ht, hf]
    rw [← List.append_nil (objectChars t f), upToMark_append hmark]
    rfl
  have hslash {t t' f' : String} (ht : '/' ∉ t.toList) :
      upToMark t.toList ≠ objectChars t' f' := by
    intro he
    have hmem : '/' ∈ objectChars t' f' := by simp [objectChars]
    rw [← he] at hmem
    exact ht ((List.takeWhile_sublist _).subset hmem)
  by_cases h : '#' ∈ target.toList
  · by_cases h' : '#' ∈ target'.toList
    · rw [hmarked h, hmarked h']
      exact ⟨fun he => ⟨h, h', he⟩, fun he => he.2.2⟩
    · rw [hmarked h, hwhole h' hfile']
      exact iff_of_false (hslash htarget) fun he => h' he.2.1
  · by_cases h' : '#' ∈ target'.toList
    · rw [hwhole h hfile, hmarked h']
      exact iff_of_false (fun he => hslash htarget' he.symm) fun he => h he.1
    · rw [hwhole h hfile, hwhole h' hfile']
      refine iff_of_false (fun he => hne ?_) fun he => h he.1
      obtain ⟨ht, hf⟩ := Text.append_mark_inj he htarget htarget'
      rw [String.toList_inj.1 ht, String.toList_inj.1 hf]

end Endpoint

/-- The files of a target. -/
def targetFiles : List String :=
  [Target.stateFile, Target.lockFile]

theorem not_mem_of_mem_targetFiles {file : String} (h : file ∈ targetFiles) :
    '#' ∉ file.toList := by
  have hall : ∀ f ∈ targetFiles, '#' ∉ f.toList := by decide
  exact hall file h

/-- The requests for two objects go to one address exactly when both targets hold the mark of a
fragment and are the same before it. -/
theorem resource_eq_iff {url path : String} {token : Option String}
    {target target' file file' : String}
    (hurl : '#' ∉ url.toList) (hpath : '#' ∉ path.toList) (htarget : Target.isValid target = true)
    (htarget' : Target.isValid target' = true) (hfile : file ∈ targetFiles)
    (hfile' : file' ∈ targetFiles) (hne : (target, file) ≠ (target', file')) {q q' : Http.Request}
    (hq : (Endpoint.ofUrl url token).Sends ((Objects.ofPath path).keyOf target file) q)
    (hq' : (Endpoint.ofUrl url token).Sends ((Objects.ofPath path).keyOf target' file') q') :
    q.resource = q'.resource ↔ '#' ∈ target.toList ∧ '#' ∈ target'.toList ∧
      Endpoint.upToMark target.toList = Endpoint.upToMark target'.toList := by
  have hslash := Target.not_mem_of_isValid htarget
  have hslash' := Target.not_mem_of_isValid htarget'
  rw [← Endpoint.upToMark_objectChars hslash hslash' (not_mem_of_mem_targetFiles hfile)
    (not_mem_of_mem_targetFiles hfile') hne]
  rw [← String.toList_inj, hq.resource hurl hpath htarget, hq'.resource hurl hpath htarget']
  exact List.append_right_inj _

/-- The document and the lock record of a target without a mark have two addresses. -/
theorem resource_ne_of_files :
    Target.isValid "prod" = true ∧ ∃ q q', (Endpoint.ofUrl "http://localhost/" none).Sends
        ((Objects.ofPath "/states").keyOf "prod" Target.stateFile) q ∧
      (Endpoint.ofUrl "http://localhost/" none).Sends
        ((Objects.ofPath "/states").keyOf "prod" Target.lockFile) q' ∧
      q.resource ≠ q'.resource := by
  have hq := Endpoint.sends_get (.ofUrl "http://localhost/" none)
    ((Objects.ofPath "/states").keyOf "prod" Target.stateFile)
  have hq' := Endpoint.sends_get (.ofUrl "http://localhost/" none)
    ((Objects.ofPath "/states").keyOf "prod" Target.lockFile)
  have hurl : '#' ∉ "http://localhost/".toList := by decide
  have hpath : '#' ∉ "/states".toList := by decide
  have hvalid : Target.isValid "prod" = true := by decide
  have hmark : '#' ∉ "prod".toList := by decide
  have hstate : Target.stateFile ∈ targetFiles := by decide
  have hlock : Target.lockFile ∈ targetFiles := by decide
  have hne : ("prod", Target.stateFile) ≠ ("prod", Target.lockFile) := by decide
  have hshared := resource_eq_iff hurl hpath hvalid hvalid hstate hlock hne hq hq'
  exact ⟨hvalid, _, _, hq, hq', fun he => hmark (hshared.1 he).1⟩

/-- The documents of two targets have one address, though neither the base address nor the place of
the targets holds the mark of a fragment or of a query. -/
theorem documents_share_address :
    Target.isValid "prod#1" = true ∧ Target.isValid "prod#2" = true ∧
      ∃ q q', (Endpoint.ofUrl "http://localhost" none).Sends
          ((Objects.ofPath "states").keyOf "prod#1" Target.stateFile) q ∧
        (Endpoint.ofUrl "http://localhost" none).Sends
          ((Objects.ofPath "states").keyOf "prod#2" Target.stateFile) q' ∧
        q.resource = q'.resource := by
  have hq := Endpoint.sends_get (.ofUrl "http://localhost" none)
    ((Objects.ofPath "states").keyOf "prod#1" Target.stateFile)
  have hq' := Endpoint.sends_get (.ofUrl "http://localhost" none)
    ((Objects.ofPath "states").keyOf "prod#2" Target.stateFile)
  refine ⟨by decide, by decide, _, _, hq, hq', ?_⟩
  rw [← String.toList_inj, hq.resource (by decide) (by decide) (by decide),
    hq'.resource (by decide) (by decide) (by decide)]
  rw [Objects.objectChars, Endpoint.upToMark_append_of_mem (by decide), Objects.objectChars,
    Endpoint.upToMark_append_of_mem (by decide)]
  rfl

end ClusterLedger.Store
