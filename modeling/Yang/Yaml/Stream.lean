import Yang.Yaml.Node.Compose
import Yang.Yaml.Token.Lexer
import Yang.Yaml.Value.Build

/-!
This module contains the documents of a stream. Each document is finished, down to its values, before the next
one is begun, so the first fault of a stream is that of its first bad document.
-/

namespace Yang.Yaml

def documents (c : Composer) : Nat → Except Fault (List Value)
  | 0 => .ok []
  | fuel + 1 => do
    let event ← c.peek
    match event.what with
    | .documentStart =>
      let (root, graph, c) ← c.advance.document
      let first ← graph.value root
      return first :: (← documents c fuel)
    | .streamEnd => return []
    | _ => documents c.advance fuel

def load (text : String) : Except Fault (List Value) :=
  let made := events (tokens text.toList)
  documents ⟨made.items, made.fault, .empty, []⟩ (made.items.length + 1)

end Yang.Yaml
