import ClusterLedger.Yaml.Token

/-!
# Reading YAML

The tokens of a text are put together to a value. `none` is a text that is refused; that is also one
with an anchor, an alias, a tag, a block scalar or a directive, as this reader knows a part of YAML.
-/
namespace ClusterLedger.Yaml

/-! ## Values -/

mutual
/-- A value. Blocks are allowed outside of flow collections, and a sequence without a block of its own
is allowed in a mapping. The first argument bounds the number of steps. -/
def node? : Nat → Bool → Bool → List Token → Option (Yaml × List Token)
  | 0, _, _, _ => none
  | fuel + 1, block, bare, ts =>
    match ts with
    | .scalar style s :: rest => some (.scalar none style s, rest)
    | .flowSequence :: rest =>
      (flowItems? fuel true rest).map fun (vs, rest) => (.sequence none vs, rest)
    | .flowMapping :: rest =>
      (flowEntries? fuel true rest).map fun (es, rest) => (.mapping none es, rest)
    | .blockSequence :: rest =>
      if block then (blockItems? fuel rest).map fun (vs, rest) => (.sequence none vs, rest) else none
    | .blockMapping :: rest =>
      if block then (blockEntries? fuel rest).map fun (es, rest) => (.mapping none es, rest) else none
    | .item :: _ =>
      if bare then (bareItems? fuel ts).map fun (vs, rest) => (.sequence none vs, rest) else none
    | _ => none

/-- A value of a block; nothing is written in front of the given tokens. -/
def blockValue? : Nat → Bool → List Token → List Token → Option (Yaml × List Token)
  | 0, _, _, _ => none
  | fuel + 1, bare, ends, ts =>
    if ts.head?.any ends.contains then some (nothing, ts) else node? fuel true bare ts

/-- A value of a flow collection; nothing is written in front of the given tokens. -/
def flowValue? : Nat → List Token → List Token → Option (Yaml × List Token)
  | 0, _, _ => none
  | fuel + 1, ends, ts =>
    if ts.head?.any ends.contains then some (nothing, ts) else node? fuel false false ts

/-- The items of a sequence up to the end of its block. -/
def blockItems? : Nat → List Token → Option (List Yaml × List Token)
  | 0, _ => none
  | fuel + 1, ts =>
    match ts with
    | .blockEnd :: rest => some ([], rest)
    | .item :: rest => do
      let (v, rest) ← blockValue? fuel false [.item, .blockEnd] rest
      let (vs, rest) ← blockItems? fuel rest
      return (v :: vs, rest)
    | _ => none

/-- The items of a sequence that has no block of its own. -/
def bareItems? : Nat → List Token → Option (List Yaml × List Token)
  | 0, _ => none
  | fuel + 1, ts =>
    match ts with
    | .item :: rest => do
      let (v, rest) ← blockValue? fuel false [.item, .key, .value, .blockEnd] rest
      let (vs, rest) ← bareItems? fuel rest
      return (v :: vs, rest)
    | _ => some ([], ts)

/-- The entries of a mapping up to the end of its block. -/
def blockEntries? : Nat → List Token → Option (List (Yaml × Yaml) × List Token)
  | 0, _ => none
  | fuel + 1, ts =>
    match ts with
    | .blockEnd :: rest => some ([], rest)
    | .key :: rest => do
      let (k, rest) ← blockValue? fuel true [.key, .value, .blockEnd] rest
      let (v, rest) ← match rest with
        | .value :: rest => blockValue? fuel true [.key, .value, .blockEnd] rest
        | _ => some (nothing, rest)
      let (es, rest) ← blockEntries? fuel rest
      return ((k, v) :: es, rest)
    | _ => none

/-- The items of a sequence in brackets; all but the first have a comma in front. An item that is a key
with its value is a mapping, and its key has to be written. -/
def flowItems? : Nat → Bool → List Token → Option (List Yaml × List Token)
  | 0, _, _ => none
  | fuel + 1, first, ts =>
    match first, ts with
    | _, .flowSequenceEnd :: rest => some ([], rest)
    | false, .comma :: .flowSequenceEnd :: rest => some ([], rest)
    | false, .comma :: rest => flowItems? fuel true rest
    | false, _ => none
    | true, .key :: rest => do
      let (k, rest) ← node? fuel false false rest
      let (v, rest) ← match rest with
        | .value :: rest => flowValue? fuel [.comma, .flowSequenceEnd] rest
        | _ => some (nothing, rest)
      let (vs, rest) ← flowItems? fuel false rest
      return (.mapping none [(k, v)] :: vs, rest)
    | true, ts => do
      let (v, rest) ← node? fuel false false ts
      let (vs, rest) ← flowItems? fuel false rest
      return (v :: vs, rest)

/-- The entries of a mapping in brackets; all but the first have a comma in front. -/
def flowEntries? : Nat → Bool → List Token → Option (List (Yaml × Yaml) × List Token)
  | 0, _, _ => none
  | fuel + 1, first, ts =>
    match first, ts with
    | _, .flowMappingEnd :: rest => some ([], rest)
    | false, .comma :: .flowMappingEnd :: rest => some ([], rest)
    | false, .comma :: rest => flowEntries? fuel true rest
    | false, _ => none
    | true, .key :: rest => do
      let (k, rest) ← flowValue? fuel [.value, .comma, .flowMappingEnd] rest
      let (v, rest) ← match rest with
        | .value :: rest => flowValue? fuel [.comma, .flowMappingEnd] rest
        | _ => some (nothing, rest)
      let (es, rest) ← flowEntries? fuel false rest
      return ((k, v) :: es, rest)
    | true, ts => do
      let (k, rest) ← node? fuel false false ts
      let (es, rest) ← flowEntries? fuel false rest
      return ((k, nothing) :: es, rest)
end

/-! ## Documents -/

/-- Steps that are enough to read so many tokens. -/
def steps (ts : List Token) : Nat :=
  4 * ts.length + 8

/-- The value of a document, behind which nothing may follow but lines that end it. -/
def document? (ts : List Token) : Option Yaml := do
  let (v, rest) ← node? (steps ts) true false ts
  if rest.all (· = .documentEnd) then return v else none

/-- The value of the only document in a text; an empty one says nothing. Without a line that begins
it, a document cannot be empty in front of a line that ends it. -/
def read? (s : String) : Option Yaml := do
  match ← (input? s).bind tokens? with
  | [] => return nothing
  | .documentStart :: ts => if ts.all (· = .documentEnd) then return nothing else document? ts
  | ts => document? ts

end ClusterLedger.Yaml
