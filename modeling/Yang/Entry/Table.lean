import Yang.Format.Registry

/-!
This module contains entries that are linked by hand: each has a number, its children by name, and the entry it was
last added to.
-/

namespace Yang

def sameTable {α : Type} [BEq α] (a b : List (String × α)) : Bool :=
  a.length == b.length && a.all (fun p => b.lookup p.1 == some p.2)

def ResolvedType.same (a b : ResolvedType) : Bool :=
  { a with facets := [] } == { b with facets := [] } && sameTable a.facets b.facets

def EntryHead.same (a b : EntryHead) : Bool :=
  { a with type := none } == { b with type := none }
    && match a.type, b.type with
      | some s, some t => s.same t
      | none, none => true
      | _, _ => false

namespace Entry

mutual

def same (a b : Entry) : Bool :=
  match a with
  | mk head children =>
    head.same b.head && children.length == b.children.length && sameAll children b

def sameAll (entries : List Entry) (b : Entry) : Bool :=
  match entries with
  | [] => true
  | e :: rest =>
    (match b.child? e.name with
      | some child => same e child
      | none => false) && sameAll rest b

end

end Entry

structure LinkedEntry where
  head : EntryHead
  children : List (String × Nat)
  parent : Option Nat
  deriving Repr, Inhabited

structure EntryTable where
  entries : List LinkedEntry
  labels : List (String × Nat)
  deriving Repr, Inhabited

namespace EntryTable

def empty : EntryTable :=
  ⟨[], []⟩

def create (table : EntryTable) (label : String) (head : EntryHead) : EntryTable :=
  ⟨table.entries ++ [⟨head, [], none⟩], put label table.entries.length table.labels⟩

def number? (table : EntryTable) (label : String) : Option Nat :=
  table.labels.lookup label

def modify (table : EntryTable) (n : Nat) (change : LinkedEntry → LinkedEntry) : EntryTable :=
  { table with entries := table.entries.modify n change }

def add (table : EntryTable) (parent child : Nat) : EntryTable :=
  match table.entries[child]? with
  | some e =>
    (table.modify child (fun e => { e with parent := some parent })).modify parent
      (fun p => { p with children := put e.head.name child p.children })
  | none => table

def above (table : EntryTable) (n : Nat) : Nat → List EntryHead
  | 0 => []
  | limit + 1 =>
    match (table.entries[n]?).bind LinkedEntry.parent with
    | some p => ((table.entries[p]?).map LinkedEntry.head).toList ++ above table p limit
    | none => []

def visit? (table : EntryTable) (n : Nat) : Option Entry.Visit :=
  (table.entries[n]?).map (fun e => ⟨e.head, table.above n table.entries.length⟩)

def root? (table : EntryTable) (n : Nat) : Option EntryHead :=
  (table.visit? n).map (fun v => v.above.getLast?.getD v.head)

def toEntry (table : EntryTable) (n : Nat) : Nat → Entry
  | 0 => .mk ((table.entries[n]?).map LinkedEntry.head |>.getD default) []
  | levels + 1 =>
    match table.entries[n]? with
    | some e => .mk e.head (e.children.map (fun p => toEntry table p.2 levels))
    | none => .mk default []

def tree (table : EntryTable) (n : Nat) : Entry :=
  table.toEntry n table.entries.length

def visits (table : EntryTable) (n : Nat) : Nat → List Entry.Visit
  | 0 => []
  | levels + 1 =>
    let children := ((table.entries[n]?).map LinkedEntry.children).getD []
    let ordered := children.mergeSort (fun a b => decide (a.1 ≤ b.1))
    (table.visit? n).toList ++ ordered.flatMap (fun p => visits table p.2 levels)

def walk (table : EntryTable) (n : Nat) : List Entry.Visit :=
  table.visits n table.entries.length

def render (table : EntryTable) (format : String) (numbers : List Nat) : Option (Except FormatFault String) :=
  if format = "paths" then
    some <| .ok (String.join (numbers.flatMap (fun n => pathLinesOf (table.walk n))))
  else
    (Registry.builtin.lookup format).map (fun f => f.render (numbers.map table.tree))

end EntryTable

end Yang
