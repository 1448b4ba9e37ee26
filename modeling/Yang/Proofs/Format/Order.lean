import Yang.Format.Registry
import Yang.Proofs.Entry.At

/-!
This module contains the proof that the formats which are always there write the same of trees that are the same but for
the order of children.
-/

namespace Yang

variable {entries entries' : List Entry}

theorem outlineLines_eq (entries : List Entry) :
    outlineLines entries = (entries.map Entry.inOrder).flatMap (Outline.lines 0) := by
  rw [List.flatMap_map]
  rfl

theorem toJson_eq (entries : List Entry) :
    entries.map Entry.toJson = (entries.map Entry.inOrder).map Entry.membersOf := by
  rw [List.map_map]
  rfl

theorem pathLines_eq (entries : List Entry) :
    pathLines entries = (entries.map Entry.inOrder).flatMap (fun e => pathLinesOf (e.visits [])) := by
  rw [List.flatMap_map]
  rfl

theorem typeLines_eq (entries : List Entry) :
    typeLines entries = (entries.map Entry.inOrder).flatMap (fun e => typeLinesOf e.name (e.visits [])) := by
  rw [List.flatMap_map]
  simp only [Entry.name_inOrder]
  rfl

theorem drawings_eq (entries : List Entry) :
    drawings entries = (entries.map Entry.inOrder).map (fun e =>
      Drawing.labelled "" "" 0 ("[bold]module[/bold] " ++ Label.escape e.name)
        ++ Drawing.drawAll "" 1 e.children) := by
  rw [List.map_map]
  unfold drawings
  apply List.map_congr_left
  intro e _
  unfold Drawing.drawTree
  rw [Function.comp_apply, Entry.name_inOrder]

theorem renderJson_eq_of_inOrder (h : entries.map Entry.inOrder = entries'.map Entry.inOrder) :
    renderJson entries = renderJson entries' := by
  unfold renderJson
  rw [toJson_eq, toJson_eq, h]

theorem render_eq_of_inOrder {formatter : Formatter} (hf : formatter ∈ builtinFormats)
    (h : entries.map Entry.inOrder = entries'.map Entry.inOrder) :
    formatter.render entries = formatter.render entries' := by
  unfold builtinFormats at hf
  simp only [List.mem_cons, List.not_mem_nil, or_false] at hf
  unfold Formatter.render
  rcases hf with rfl | rfl | rfl | rfl | rfl
  · dsimp only
    rw [outlineLines_eq, outlineLines_eq, h]
  · dsimp only
    unfold writeJson
    rw [renderJson_eq_of_inOrder h]
  · dsimp only
    rw [pathLines_eq, pathLines_eq, h]
  · dsimp only
    rw [typeLines_eq, typeLines_eq, h]
  · dsimp only
    rw [drawings_eq, drawings_eq, h]

end Yang
