import ClusterLedger.Json.Reader
import ClusterLedger.Proofs.Json.Scan

/-!
# Reading what was written

The tokens of a value are read as that value, provided that it is not nested too deeply. The writer
has no such limit.
-/
namespace ClusterLedger.Json

/-! ## The stack machine on the tokens of a value -/

namespace Reader

/-- The state after some tokens. -/
def run? (limit : Nat) (r : Reader) (ts : List Token) : Option Reader :=
  ts.foldlM (step? limit) r

theorem run?_cons (limit : Nat) (r : Reader) (t : Token) (ts : List Token) :
    r.run? limit (t :: ts) = (r.step? limit t).bind (run? limit · ts) :=
  rfl

theorem run?_append (limit : Nat) (r : Reader) (ts us : List Token) :
    r.run? limit (ts ++ us) = (r.run? limit ts).bind (run? limit · us) :=
  List.foldlM_append

/-- A value may begin. -/
def Ready (limit : Nat) (stack : List Frame) (e : Expected) : Prop :=
  ∀ t, t ≠ .closeArray → step? limit ⟨stack, e⟩ t = begin? limit stack t

theorem ready_value (limit : Nat) (stack : List Frame) : Ready limit stack .value := by
  intro t _
  cases t <;> rfl

theorem ready_firstItem (limit : Nat) (stack : List Frame) : Ready limit stack .firstItem := by
  intro t ht
  cases t with
  | closeArray => exact absurd rfl ht
  | _ => rfl

variable {limit : Nat} {stack : List Frame} {e : Expected}

theorem Ready.run? (h : Ready limit stack e) (t : Token) (ht : t ≠ .closeArray)
    (ts : List Token) :
    run? limit ⟨stack, e⟩ (t :: ts) = (begin? limit stack t).bind (Reader.run? limit · ts) := by
  rw [run?_cons, h t ht]

/-- A value that is one token. -/
theorem Ready.run?_atom (h : Ready limit stack e) (t : Token) (ht : t ≠ .closeArray) {v : Json}
    (hb : begin? limit stack t = complete? v stack) :
    Reader.run? limit ⟨stack, e⟩ [t] = complete? v stack := by
  rw [h.run? t ht, hb]
  exact Option.bind_fun_some _

/-- Behind an opening bracket the stack is one frame higher, if there is room for it. -/
theorem Ready.run?_openArray (h : Ready limit stack e) (ts : List Token) :
    Reader.run? limit ⟨stack, e⟩ (.openArray :: ts) =
      if stack.length < limit then Reader.run? limit ⟨.array [] :: stack, .firstItem⟩ ts
      else none := by
  rw [h.run? .openArray nofun, begin?]
  split <;> rfl

theorem Ready.run?_openObject (h : Ready limit stack e) (ts : List Token) :
    Reader.run? limit ⟨stack, e⟩ (.openObject :: ts) =
      if stack.length < limit then Reader.run? limit ⟨.object [] :: stack, .firstKey⟩ ts
      else none := by
  rw [h.run? .openObject nofun, begin?]
  split <;> rfl

/-- Behind a key and a colon its value may begin. -/
theorem run?_key (limit : Nat) (stack : List Frame) {e : Expected} (he : e = .firstKey ∨ e = .key)
    (acc : List (String × Json)) (k : String) (ts : List Token) :
    run? limit ⟨.object acc :: stack, e⟩ (.string (some k) :: .colon :: ts) =
      run? limit ⟨.entry acc k :: stack, .value⟩ ts := by
  rcases he with rfl | rfl <;> rfl

theorem run?_comma (limit : Nat) (stack : List Frame) (ts : List Token) :
    run? limit ⟨stack, .nextItem⟩ (.comma :: ts) = run? limit ⟨stack, .value⟩ ts :=
  rfl

theorem run?_commaKey (limit : Nat) (stack : List Frame) (ts : List Token) :
    run? limit ⟨stack, .nextMember⟩ (.comma :: ts) = run? limit ⟨stack, .key⟩ ts :=
  rfl

theorem run?_closeArray (limit : Nat) (stack : List Frame) (acc : List Json) :
    run? limit ⟨.array acc :: stack, .nextItem⟩ [.closeArray] =
      complete? (.array acc.reverse) stack :=
  Option.bind_fun_some _

theorem run?_closeObject (limit : Nat) (stack : List Frame) (acc : List (String × Json)) :
    run? limit ⟨.object acc :: stack, .nextMember⟩ [.closeObject] =
      complete? (.object acc.reverse) stack :=
  Option.bind_fun_some _

mutual
/-- A value that is nested too deeply is refused, any other one is complete. -/
theorem run?_tokens {stack : List Frame} {e : Expected} (hs : stack.length ≤ limit)
    (he : Ready limit stack e) : (v : Json) →
    run? limit ⟨stack, e⟩ v.tokens =
      if v.depth + stack.length ≤ limit then complete? v stack else none
  | .null => by
    rw [Json.tokens, depth, if_pos (by omega)]
    exact he.run?_atom .null nofun rfl
  | .bool b => by
    rw [Json.tokens, depth, if_pos (by omega)]
    exact he.run?_atom (.bool b) nofun rfl
  | .number n => by
    rw [Json.tokens, depth, if_pos (by omega)]
    exact he.run?_atom (.number (some n)) nofun rfl
  | .string s => by
    rw [Json.tokens, depth, if_pos (by omega)]
    exact he.run?_atom (.string (some s)) nofun rfl
  | .array [] => by
    rw [Json.tokens, depth, depthItems, he.run?_openArray]
    have hclose : run? limit ⟨.array [] :: stack, .firstItem⟩ [.closeArray] =
        complete? (.array []) stack := Option.bind_fun_some _
    rw [hclose]
    split
    · rw [if_pos (by omega)]
    · rw [if_neg (by omega)]
  | .array (v :: items) => by
    rw [Json.tokens, depth, depthItems, he.run?_openArray]
    split
    · next hroom =>
      have hlen : (Frame.array [] :: stack).length ≤ limit := hroom
      rw [run?_append, run?_append, run?_tokens hlen (ready_firstItem limit _) v]
      rw [List.length_cons]
      split
      · rw [complete?, Option.bind_some, run?_tokensItems hroom [v] items]
        split
        · rw [Option.bind_some, run?_closeArray, if_pos (by omega)]
          simp
        · rw [if_neg (by omega)]
          rfl
      · rw [if_neg (by omega)]
        rfl
    · rw [if_neg (by omega)]
  | .object [] => by
    rw [Json.tokens, depth, depthMembers, he.run?_openObject]
    have hclose : run? limit ⟨.object [] :: stack, .firstKey⟩ [.closeObject] =
        complete? (.object []) stack := Option.bind_fun_some _
    rw [hclose]
    split
    · rw [if_pos (by omega)]
    · rw [if_neg (by omega)]
  | .object ((k, v) :: members) => by
    rw [Json.tokens, depth, depthMembers, he.run?_openObject]
    split
    · next hroom =>
      have hlen : (Frame.entry [] k :: stack).length ≤ limit := hroom
      rw [run?_key limit stack (.inl rfl), run?_append, run?_append,
        run?_tokens hlen (ready_value limit _) v]
      rw [List.length_cons]
      split
      · rw [complete?, Option.bind_some, run?_tokensMembers hroom [(k, v)] members]
        split
        · rw [Option.bind_some, run?_closeObject, if_pos (by omega)]
          simp
        · rw [if_neg (by omega)]
          rfl
      · rw [if_neg (by omega)]
        rfl
    · rw [if_neg (by omega)]

theorem run?_tokensItems {stack : List Frame} (hs : stack.length < limit) (acc : List Json) :
    (items : List Json) →
    run? limit ⟨.array acc :: stack, .nextItem⟩ (tokensItems items) =
      if depthItems items + stack.length < limit then
        some ⟨.array (items.reverse ++ acc) :: stack, .nextItem⟩ else none
  | [] => by
    rw [tokensItems, depthItems, if_pos (by omega)]
    rfl
  | v :: rest => by
    have hlen : (Frame.array acc :: stack).length ≤ limit := hs
    rw [tokensItems, depthItems, run?_comma, run?_append,
      run?_tokens hlen (ready_value limit _) v, List.length_cons]
    split
    · rw [complete?, Option.bind_some, run?_tokensItems hs (v :: acc) rest]
      split
      · rw [if_pos (by omega)]
        simp
      · rw [if_neg (by omega)]
    · rw [if_neg (by omega)]
      rfl

theorem run?_tokensMembers {stack : List Frame} (hs : stack.length < limit)
    (acc : List (String × Json)) : (members : List (String × Json)) →
    run? limit ⟨.object acc :: stack, .nextMember⟩ (tokensMembers members) =
      if depthMembers members + stack.length < limit then
        some ⟨.object (members.reverse ++ acc) :: stack, .nextMember⟩ else none
  | [] => by
    rw [tokensMembers, depthMembers, if_pos (by omega)]
    rfl
  | (k, v) :: rest => by
    have hlen : (Frame.entry acc k :: stack).length ≤ limit := hs
    rw [tokensMembers, depthMembers, run?_commaKey, run?_key limit stack (.inr rfl), run?_append,
      run?_tokens hlen (ready_value limit _) v, List.length_cons]
    split
    · rw [complete?, Option.bind_some, run?_tokensMembers hs ((k, v) :: acc) rest]
      split
      · rw [if_pos (by omega)]
        simp
      · rw [if_neg (by omega)]
    · rw [if_neg (by omega)]
      rfl
end

end Reader

/-- The tokens of a value spell it, unless it is nested too deeply. -/
theorem ofTokens?_tokens (limit : Nat) (v : Json) :
    ofTokens? limit v.tokens = if v.depth ≤ limit then some v else none := by
  have hrun := Reader.run?_tokens (Nat.zero_le limit) (Reader.ready_value limit []) v
  rw [ofTokens?, ← Reader.run?, hrun, List.length_nil, Nat.add_zero]
  split <;> rfl

/-- Indented text spells the value it was made of, unless that is nested too deeply. -/
theorem parse?_pretty {indent blank : List Char} (hi : ∀ c ∈ indent, isSpace c = true)
    (hb : ∀ c ∈ blank, isSpace c = true) (limit : Nat) {v : Json}
    (hn : ∀ n ∈ v.numbers, n.ReadsBack) :
    parse? limit (v.prettyChars indent 0 ++ blank) =
      if v.depth ≤ limit then some v else none := by
  rw [parse?, tokens?_pretty hi hn hb, Option.bind_some, ofTokens?_tokens]

end ClusterLedger.Json
