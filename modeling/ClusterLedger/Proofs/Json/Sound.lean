import ClusterLedger.Json.Reader
import ClusterLedger.Proofs.Except
import ClusterLedger.Proofs.Json.Canonical

/-!
# What reading yields

Whatever bytes are read, the value is in order, its integers have 64 bits and its nesting is within
the limit. What a path leads to inside such a value is such a value again.
-/
namespace ClusterLedger.Json

/-- A value that can be written and read again, but for its depth and its floating-point numbers. -/
structure Sound (v : Json) : Prop where
  ordered : v.Ordered
  inRange : ∀ n ∈ v.numbers, n.InRange

/-! ## Tokens -/

/-- The number of a token, if it has one, is one that can be written. -/
def Token.InRange : Token → Prop
  | .number (some n) => n.InRange
  | _ => True

namespace Scanner

/-- All tokens so far have numbers that can be written. -/
def InRange (s : Scanner) : Prop :=
  ∀ t ∈ s.tokens, t.InRange

theorem inRange_outsideStep {ts : List Token} (h : ∀ t ∈ ts, t.InRange) (c : Char) :
    (outsideStep ts c).InRange := by
  rw [outsideStep]
  split
  · exact h
  split
  · exact h
  split
  · next t ht =>
    refine List.forall_mem_cons.2 ⟨?_, h⟩
    unfold punctuation? at ht
    split at ht <;> cases ht <;> trivial
  · exact h

theorem inRange_ofWord? {word : List Char} {t : Token} (h : Token.ofWord? word = some t) :
    t.InRange := by
  cases t with
  | number value =>
    cases value with
    | none => trivial
    | some n => exact Token.inRange_ofWord? h
  | _ => trivial

theorem InRange.step? {s s' : Scanner} (h : s.InRange) {c : Option Char}
    (hs : s.step? c = some s') : s'.InRange := by
  obtain ⟨mode, ts⟩ := s
  cases mode with
  | between =>
    obtain ⟨c, -, rfl⟩ := Option.map_eq_some_iff.1 hs
    exact inRange_outsideStep h c
  | word seen =>
    obtain ⟨c, -, hs⟩ := Option.bind_eq_some_iff.1 hs
    split at hs
    · obtain ⟨t, ht, rfl⟩ := Option.map_eq_some_iff.1 hs
      exact inRange_outsideStep (List.forall_mem_cons.2 ⟨inRange_ofWord? ht, h⟩) c
    · cases hs
      exact h
  | string seen escape =>
    simp only [Scanner.step?] at hs
    split at hs
    · cases hs
      exact List.forall_mem_cons.2 ⟨trivial, h⟩
    · obtain ⟨mode, -, rfl⟩ := Option.map_eq_some_iff.1 hs
      exact h

theorem InRange.finish? {s : Scanner} (h : s.InRange) {ts : List Token}
    (hs : s.finish? = some ts) : ∀ t ∈ ts, t.InRange := by
  intro t ht
  obtain ⟨mode, us⟩ := s
  cases mode with
  | between =>
    cases hs
    exact h t (List.mem_reverse.1 ht)
  | word seen =>
    obtain ⟨u, hu, rfl⟩ := Option.map_eq_some_iff.1 hs
    rcases List.mem_cons.1 (List.mem_reverse.1 ht) with rfl | ht
    · exact inRange_ofWord? hu
    · exact h t ht
  | string seen escape => cases hs

end Scanner

theorem inRange_tokens? {cs : List Char} {ts : List Token} (h : tokens? cs = some ts) :
    ∀ t ∈ ts, t.InRange := by
  obtain ⟨s, hs, hfinish⟩ := Option.bind_eq_some_iff.1 h
  have hstart : Scanner.InRange ⟨.between, []⟩ := nofun
  have hend : s.InRange := foldlM_keeps (fun _ _ _ _ hb he => Scanner.InRange.step? hb he) hstart hs
  exact hend.finish? hfinish

/-! ## Values -/

/-- A value that may stand inside some arrays and objects. -/
def FitsAt (limit height : Nat) (v : Json) : Prop :=
  v.depth + height ≤ limit ∧ ∀ n ∈ v.numbers, n.InRange

theorem fitsAt_array {limit height : Nat} (hroom : height < limit) {items : List Json}
    (h : ∀ v ∈ items, v.FitsAt limit (height + 1)) : (array items).FitsAt limit height := by
  have hdepth : depthItems items ≤ limit - (height + 1) := depthItems_le.2 fun v hv => by
    have := (h v hv).1
    omega
  refine ⟨?_, fun n hn => ?_⟩
  · rw [depth]
    omega
  · obtain ⟨v, hv, hn⟩ := mem_numbersItems.1 hn
    exact (h v hv).2 n hn

theorem fitsAt_object {limit height : Nat} (hroom : height < limit)
    {members : List (String × Json)} (h : ∀ e ∈ members, e.2.FitsAt limit (height + 1)) :
    (object members).FitsAt limit height := by
  have hdepth : depthMembers members ≤ limit - (height + 1) := depthMembers_le.2 fun e he => by
    have := (h e he).1
    omega
  refine ⟨?_, fun n hn => ?_⟩
  · rw [depth]
    omega
  · obtain ⟨e, he, hn⟩ := mem_numbersMembers.1 hn
    exact (h e he).2 n hn

/-- A value without items or members fits wherever the limit is not exceeded yet. -/
theorem fitsAt_leaf {limit height : Nat} (hheight : height ≤ limit) {v : Json} (hdepth : v.depth = 0)
    (hn : ∀ n ∈ v.numbers, n.InRange) : v.FitsAt limit height :=
  ⟨by omega, hn⟩

/-- What an open array or object holds so far fits at its height. -/
def Frame.FitsAt (limit height : Nat) : Frame → Prop
  | .array items => ∀ v ∈ items, v.FitsAt limit height
  | .object members | .entry members _ => ∀ e ∈ members, e.2.FitsAt limit height

/-- All open arrays and objects fit at their heights. -/
def StackFits (limit : Nat) : List Frame → Prop
  | [] => True
  | f :: rest => rest.length < limit ∧ f.FitsAt limit (rest.length + 1) ∧ StackFits limit rest

namespace Reader

/-- The values that are complete fit where they stand. -/
structure Fits (limit : Nat) (r : Reader) : Prop where
  stack : StackFits limit r.stack
  value : ∀ v, r.expected = .nothing v → v.FitsAt limit 0

variable {limit : Nat} {stack : List Frame} {r : Reader} {v : Json} {t : Token}

theorem fits_waiting {e : Expected} (h : StackFits limit stack) (he : ∀ v, e ≠ .nothing v) :
    Fits limit ⟨stack, e⟩ :=
  ⟨h, fun v hv => absurd hv (he v)⟩

theorem fits_complete? (h : StackFits limit stack) (hv : v.FitsAt limit stack.length)
    (hr : complete? v stack = some r) : r.Fits limit := by
  cases stack with
  | nil =>
    cases hr
    exact ⟨trivial, fun w hw => by cases hw; exact hv⟩
  | cons f rest =>
    obtain ⟨hroom, hf, hrest⟩ := h
    cases f with
    | array items =>
      cases hr
      exact fits_waiting ⟨hroom, List.forall_mem_cons.2 ⟨hv, hf⟩, hrest⟩ nofun
    | entry members k =>
      cases hr
      exact fits_waiting ⟨hroom, List.forall_mem_cons.2 ⟨hv, hf⟩, hrest⟩ nofun
    | object members => cases hr

theorem fits_close? (h : StackFits limit stack) (hr : close? stack = some r) :
    r.Fits limit := by
  cases stack with
  | nil => cases hr
  | cons f rest =>
    obtain ⟨hroom, hf, hrest⟩ := h
    cases f with
    | array items =>
      have hitems := fitsAt_array hroom fun v hv => hf v (List.mem_reverse.1 hv)
      exact fits_complete? hrest hitems hr
    | object members =>
      have hmembers := fitsAt_object hroom fun e he => hf e (List.mem_reverse.1 he)
      exact fits_complete? hrest hmembers hr
    | entry members k => cases hr

theorem length_le (h : StackFits limit stack) : stack.length ≤ limit := by
  cases stack with
  | nil => exact Nat.zero_le limit
  | cons f rest => exact h.1

theorem fits_begin? (h : StackFits limit stack) (ht : t.InRange)
    (hr : begin? limit stack t = some r) : r.Fits limit := by
  have hlen := length_le h
  unfold begin? at hr
  split at hr
  · split at hr
    · next hroom => cases hr; exact fits_waiting ⟨hroom, nofun, h⟩ nofun
    · cases hr
  · split at hr
    · next hroom => cases hr; exact fits_waiting ⟨hroom, nofun, h⟩ nofun
    · cases hr
  · refine fits_complete? h ?_ hr
    exact fitsAt_leaf hlen rfl nofun
  · refine fits_complete? h ?_ hr
    exact fitsAt_leaf hlen rfl nofun
  · refine fits_complete? h ?_ hr
    refine fitsAt_leaf hlen rfl fun m hm => ?_
    cases List.mem_singleton.1 hm
    exact ht
  · refine fits_complete? h ?_ hr
    exact fitsAt_leaf hlen rfl nofun
  · cases hr

theorem Fits.step? (h : r.Fits limit) (ht : t.InRange) {r' : Reader}
    (hr : r.step? limit t = some r') : r'.Fits limit := by
  obtain ⟨stack, e⟩ := r
  have hstack : StackFits limit stack := h.stack
  unfold Reader.step? at hr
  split at hr
  · exact fits_begin? hstack ht hr
  · exact fits_close? hstack hr
  · exact fits_begin? hstack ht hr
  · cases hr; exact fits_waiting hstack nofun
  · exact fits_close? hstack hr
  · exact fits_close? hstack hr
  · cases hr; exact fits_waiting hstack nofun
  · cases hr; exact fits_waiting hstack nofun
  · split at hr
    · next heq =>
      cases hr
      cases heq
      exact fits_waiting hstack nofun
    · cases hr
  · cases hr; exact fits_waiting hstack nofun
  · exact fits_close? hstack hr
  · cases hr

end Reader

/-- A value that is read is nested within the limit, and its numbers can be written. -/
theorem fitsAt_parse? {limit : Nat} {cs : List Char} {v : Json} (h : parse? limit cs = some v) :
    v.FitsAt limit 0 := by
  obtain ⟨ts, hts, h⟩ := Option.bind_eq_some_iff.1 h
  obtain ⟨r, hr, hfinish⟩ := Option.bind_eq_some_iff.1 h
  have hstart : Reader.Fits limit ⟨[], .value⟩ := Reader.fits_waiting trivial nofun
  have hend : r.Fits limit := foldlM_keeps
    (fun _ t ht _ hb he => Reader.Fits.step? hb (inRange_tokens? hts t ht) he) hstart hr
  unfold Reader.finish? at hfinish
  split at hfinish
  · next w he =>
    cases hfinish
    exact hend.value _ he
  · cases hfinish

theorem sound_canonical {limit : Nat} {v : Json} (h : v.FitsAt limit 0) :
    v.canonical.Sound ∧ v.canonical.depth ≤ limit := by
  refine ⟨⟨ordered_canonical v, fun n hn => h.2 n (numbers_canonical_subset v hn)⟩, ?_⟩
  have := depth_canonical_le v
  have := h.1
  omega

theorem sound_read? {s : String} {v : Json} (h : read? s = some v) :
    v.Sound ∧ v.depth ≤ maxDepth := by
  obtain ⟨w, hw, rfl⟩ := Option.map_eq_some_iff.1 h
  exact sound_canonical (fitsAt_parse? hw)

theorem sound_readBytes? {bytes : ByteArray} {v : Json} (h : readBytes? bytes = some v) :
    v.Sound ∧ v.depth ≤ maxDepth := by
  obtain ⟨w, hw, rfl⟩ := Option.map_eq_some_iff.1 h
  obtain ⟨s, -, hw⟩ := Option.bind_eq_some_iff.1 hw
  exact sound_canonical (fitsAt_parse? hw)

end ClusterLedger.Json
