import SchemaPackage.Archive.Bits

/-!
Prefix codes. The lengths of the code words are those of an optimal code, except that none is
longer than a limit; the words follow from the lengths, since words of one length are numbered
in the order of what they stand for.
-/
namespace SchemaPackage.Archive

/-- How many leaves a tree has at each depth. -/
abbrev Profile := List Nat

namespace Profile

def add : Profile → Profile → Profile
  | [], b => b
  | a, [] => a
  | x :: a, y :: b => (x + y) :: add a b

/-- The tree of two trees. -/
def join (a b : Profile) : Profile := 0 :: add a b

/-- The lighter of the first leaf and the first tree, the leaf if they weigh the same, and what
is left without it. -/
def lightest (leaves : List Nat) (trees : List (Nat × Profile)) :
    (Nat × Profile) × List Nat × List (Nat × Profile) :=
  match leaves, trees with
  | [], [] => ((0, []), [], [])
  | leaf :: leaves, [] => ((leaf, [1]), leaves, [])
  | [], tree :: trees => (tree, [], trees)
  | leaf :: leaves, tree :: trees =>
    if tree.1 < leaf then (tree, leaf :: leaves, trees) else ((leaf, [1]), leaves, tree :: trees)

/-- Joins the two lightest so many times. -/
def joinLightest (leaves : List Nat) (trees : List (Nat × Profile)) : Nat → Profile
  | 0 => (lightest leaves trees).1.2
  | n + 1 =>
    let (a, leaves, trees) := lightest leaves trees
    let (b, leaves, trees) := lightest leaves trees
    joinLightest leaves (trees ++ [(a.1 + b.1, join a.2 b.2)]) n

/-- The profile of an optimal tree over leaves in the order of their weights. A leaf alone lies
at depth one. -/
def optimal (weights : List Nat) : Profile :=
  match weights with
  | [_] => [0, 1]
  | _ => joinLightest weights [] (weights.length - 1)

/-- The share of all words that a profile takes up, in words of the greatest length. -/
def load (limit : Nat) (counts : Array Nat) : Nat :=
  (List.range limit).foldl (fun total i => total + counts.getD (i + 1) 0 <<< (limit - (i + 1))) 0

/-- Gives up one of the longest words, and makes the longest shorter word one longer for it. -/
def relieve (limit : Nat) (counts : Array Nat) : Array Nat :=
  let counts := counts.modify limit (· - 1)
  match (List.range limit).reverse.find? fun i => i != 0 && counts.getD i 0 != 0 with
  | some i => (counts.modify i (· - 1)).modify (i + 1) (· + 2)
  | none => counts

/-- How many words there are of each length up to the limit. -/
def limited (limit : Nat) (p : Profile) : Array Nat :=
  let short := (p ++ List.replicate limit 0).take limit
  let counts := (short ++ [(p.drop limit).foldl (· + ·) 0]).toArray
  Nat.repeat (relieve limit) (load limit counts - 1 <<< limit) counts

end Profile

/-- The lengths of the words for numbered things that are used with the given frequencies. The
more frequent of two things never has the longer word. -/
def codeLengths (limit : Nat) (frequencies : Array Nat) : Array Nat :=
  let used := (List.range frequencies.size).filter fun i => frequencies.getD i 0 != 0
  let sorted := used.mergeSort fun i j => frequencies.getD i 0 ≤ frequencies.getD j 0
  let counts := (Profile.optimal (sorted.map (frequencies.getD · 0))).limited limit
  let lengths := (List.range (limit + 1)).flatMap fun n => List.replicate (counts.getD n 0) n
  (sorted.reverse.zip lengths).foldl (fun all e => all.set! e.1 e.2)
    (Array.replicate frequencies.size 0)

/-- The bits of a word in reverse, because words are written from their highest bit. -/
def reversedBits (value : Nat) : Nat → Nat
  | 0 => 0
  | width + 1 => (value % 2) <<< width + reversedBits (value / 2) width

/-- The words as they are written, and their lengths. -/
structure PrefixCode where
  lengths : Array Nat
  words : Array Nat

namespace PrefixCode

/-- The first word of each length, given how many words there are of each. -/
def firstWords (counts : List Nat) : List Nat :=
  (counts.foldl (fun (next, firsts) n => ((next + n) <<< 1, next :: firsts)) (0, [])).2.reverse

def ofLengths (limit : Nat) (lengths : Array Nat) : PrefixCode :=
  let used := lengths.toList.filter (· != 0)
  let counts := (List.range (limit + 1)).map fun n => used.count n
  let (_, words) := lengths.foldl
    (fun (next, words) n =>
      (next.modify n (· + 1), words.push (reversedBits (next.getD n 0) n)))
    ((firstWords counts).toArray, #[])
  { lengths, words }

def put (code : PrefixCode) (w : BitWriter) (i : Nat) : BitWriter :=
  w.put (code.words.getD i 0) (code.lengths.getD i 0)

end PrefixCode

end SchemaPackage.Archive
