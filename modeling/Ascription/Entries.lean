/-!
# Entries — association lists that keep their order

Aliases, declarations, scopes, maps and records all list their entries in the order in which the
keys first came.  The view is the plain list of pairs, read with `List.lookup`; writing an existing
key changes its value and not its place.
-/

namespace Ascription

namespace Entries

variable {K V : Type} [DecidableEq K]

/-- **Writing an entry**: a known key keeps its place and takes the new value, a new key goes
last. -/
def insert (k : K) (v : V) : List (K × V) → List (K × V)
  | [] => [(k, v)]
  | (k', v') :: rest => if k = k' then (k', v) :: rest else (k', v') :: insert k v rest

/-- The entries written one after the other onto `start`. -/
def insertAll (start : List (K × V)) (entries : List (K × V)) : List (K × V) :=
  entries.foldl (fun acc e => insert e.1 e.2 acc) start

/-- The entries that a list of pairs leaves when each is written in turn. -/
def ofList (entries : List (K × V)) : List (K × V) := insertAll [] entries

/-- Has the key been written? -/
def contains (entries : List (K × V)) (k : K) : Bool := (entries.lookup k).isSome

end Entries

end Ascription
