import Yang.Proofs.Entry.Walk
import Yang.Proofs.Format.Legible
import Yang.Proofs.Format.Outlined

/-!
This module contains what the data paths and the JSON form of a tree have to do with a walk through it: the former have
one line for each entry with data, and the latter has an object for every entry, in the order of the walk.
-/

namespace Yang

namespace Json

mutual

/--
The objects of a JSON form by the names on the way to them, each without its children and before these.
-/
def objects (names : List String) (value : Json) : List (List String × List (String × Json)) :=
  match value with
  | object members => (names, members.filter fun m => m.1 != "children") :: objectsBelow names members
  | _ => []

def objectsBelow (names : List String) (members : List (String × Json)) : List (List String × List (String × Json)) :=
  match members with
  | [] => []
  | (name, value) :: rest => (if name = "children" then objectsIn names value else []) ++ objectsBelow names rest

def objectsIn (names : List String) (value : Json) : List (List String × List (String × Json)) :=
  match value with
  | object members => objectsOfAll names members
  | _ => []

def objectsOfAll (names : List String) (members : List (String × Json)) : List (List String × List (String × Json)) :=
  match members with
  | [] => []
  | (name, value) :: rest => objects (names ++ [name]) value ++ objectsOfAll names rest

end

theorem objectsBelow_append (names : List String) (members more : List (String × Json)) :
    objectsBelow names (members ++ more) = objectsBelow names members ++ objectsBelow names more := by
  induction members with
  | nil => rfl
  | cons m rest ih => rw [List.cons_append, objectsBelow, objectsBelow, ih, List.append_assoc]

theorem objectsBelow_of_notMem (names : List String) {members : List (String × Json)}
    (h : "children" ∉ members.map Prod.fst) : objectsBelow names members = [] := by
  induction members with
  | nil => rfl
  | cons m rest ih =>
    rw [List.map_cons, List.mem_cons, not_or] at h
    rw [objectsBelow, if_neg (Ne.symm h.1), ih h.2]
    rfl

theorem filter_when (condition : Bool) (value : Json) :
    (when condition "children" value).filter (fun m => m.1 != "children") = [] := by
  unfold when
  cases condition <;> rfl

end Json

theorem EntryHead.children_notMem (head : EntryHead) : "children" ∉ head.members.map Prod.fst := by
  intro hmem
  have hname := (names_members head).subset hmem
  revert hname
  decide

namespace Entry

theorem objects_mk (names : List String) (head : EntryHead) (children : List Entry) :
    Json.objects names (membersOf (.mk head children))
      = (names, head.members) :: Json.objectsOfAll names (membersOfAll children) := by
  have hfilter : (head.members.filter fun m => m.1 != "children") = head.members := by
    rw [List.filter_eq_self]
    intro m hm
    rw [bne_iff_ne]
    exact fun heq => head.children_notMem (heq ▸ List.mem_map_of_mem hm)
  rw [membersOf, Json.objects, List.filter_append, hfilter, Json.objectsBelow_append,
    Json.objectsBelow_of_notMem names head.children_notMem, List.nil_append, Json.filter_when, List.append_nil]
  cases children with
  | nil =>
    rw [membersOfAll, Json.objectsOfAll, List.isEmpty_nil, Json.when, Bool.not_true, if_neg Bool.false_ne_true,
      Json.objectsBelow]
  | cons c rest =>
    rw [List.isEmpty_cons, Json.when, Bool.not_false, if_pos rfl, Json.objectsBelow, if_pos rfl, Json.objectsIn,
      Json.objectsBelow, List.append_nil]

mutual

theorem objects_membersOf (above : List EntryHead) (e : Entry) :
    Json.objects (Visit.mk e.head above).names e.membersOf
      = (e.visits above).map fun v => (v.names, v.head.members) := by
  obtain ⟨head, children⟩ := e
  rw [objects_mk, visits, List.map_cons]
  exact congrArg _ (objectsOfAll_membersOfAll ⟨head, above⟩ children)

theorem objectsOfAll_membersOfAll (v : Visit) (entries : List Entry) :
    Json.objectsOfAll v.names (membersOfAll entries)
      = (visitsAll (v.head :: v.above) entries).map fun v => (v.names, v.head.members) := by
  match entries with
  | [] => rfl
  | e :: rest =>
    rw [membersOfAll, Json.objectsOfAll, ← Visit.names_down, visitsAll, List.map_append,
      objectsOfAll_membersOfAll v rest]
    congr 1
    exact objects_membersOf (v.head :: v.above) e

end

theorem objects_toJson (e : Entry) :
    Json.objects [] e.toJson = e.walk.map fun v => (v.names, v.head.members) :=
  objects_membersOf [] e.inOrder

structure Rooted (e : Entry) : Prop where
  kind : e.head.kind = .module
  below : e.All fun _ children => ∀ c ∈ children, c.kind ≠ .module

theorem Rooted.kind_of_trail? {e : Entry} (h : e.Rooted) {names : List String} {entries : List Entry}
    (htrail : e.trail? names = some entries) : ∀ c ∈ entries, c.head.kind ≠ .module := by
  intro c hc
  obtain ⟨d, hd, hchild⟩ := within_of_trail? htrail c hc
  exact h.below d hd c.head (List.mem_map_of_mem hchild)

def Visit.isData (v : Visit) : Bool :=
  v.head.kind != .module && !v.head.kind.isGroup

def Visit.dataRow (v : Visit) : String :=
  (if v.head.config then "rw " else "RO ") ++ v.dataPath
    ++ String.join ((v.head.type.map (fun type => " " ++ type.name)).toList)

theorem join_pathLinesOf (visits : List Visit) :
    String.join (pathLinesOf visits) = Text.written ((visits.filter Visit.isData).map Visit.dataRow) := by
  unfold pathLinesOf Text.written
  rw [List.map_map]
  rfl

theorem single_pathText {names : List String} (h : ∀ n ∈ names, Text.Single n) : Text.Single (pathText names) := by
  unfold pathText
  rw [Text.single_append]
  exact ⟨Text.single_of_all (by decide), Text.forall_mem_intercalate (Text.single_of_all (by decide)) h⟩

theorem single_dataRow {e : Entry} (hrooted : e.Rooted) (hspelled : e.Spelled) (hdistinct : e.All Distinct) {v : Visit}
    (hv : v ∈ e.walk) : Text.Single v.dataRow := by
  have htype : ∀ type, v.head.type = some type → Text.Single type.name := by
    obtain ⟨d, hd, hhead⟩ := exists_within_of_mem_visits hv
    rw [← hhead]
    exact fun type htype => ((hspelled.inOrder d hd).type type htype).single
  obtain ⟨names, entries, htrail, rfl⟩ := (mem_walk_iff hdistinct).1 hv
  have hkind := hrooted.kind_of_trail? htrail
  have hname : ∀ c ∈ entries, Text.Single c.head.qualifiedName := by
    intro c hc
    have hwords := (hspelled.trail? htrail c hc).self
    exact (Outline.word_qualifiedName ⟨hwords.name, hwords.prefixId (hkind c hc), hkind c hc⟩).single
  unfold Visit.dataRow
  rw [Text.single_append, Text.single_append, dataPath_along hrooted.kind hkind]
  refine ⟨⟨?_, single_pathText ?_⟩, ?_⟩
  · split <;> exact Text.single_of_all (by decide)
  · rw [List.forall_mem_map]
    exact fun c hc => hname c (List.mem_of_mem_filter hc)
  · generalize (Visit.along ⟨e.head, []⟩ entries).head.type = type at htype
    cases type with
    | none => exact List.forall_mem_nil _
    | some type =>
      change Text.Single ("" ++ (" " ++ type.name))
      rw [String.empty_append, Text.single_append]
      exact ⟨Text.single_of_all (by decide), htype type rfl⟩

theorem lines_dataPaths {e : Entry} (hrooted : e.Rooted) (hspelled : e.Spelled) (hdistinct : e.All Distinct) :
    Text.lines (String.join (pathLines [e])) = (e.walk.filter Visit.isData).map Visit.dataRow
      ∧ Text.splitAt '\n' (String.join (pathLines [e])) = (e.walk.filter Visit.isData).map Visit.dataRow ++ [""] := by
  have hsingle : ∀ line ∈ (e.walk.filter Visit.isData).map Visit.dataRow, Text.Single line := by
    rw [List.forall_mem_map]
    exact fun v hv => single_dataRow hrooted hspelled hdistinct (List.mem_of_mem_filter hv)
  unfold pathLines
  rw [List.flatMap_singleton, join_pathLinesOf]
  exact ⟨Text.lines_written hsingle, Text.splitAt_written fun line hline => Text.not_mem_of_single (hsingle line hline)⟩

end Entry

end Yang
