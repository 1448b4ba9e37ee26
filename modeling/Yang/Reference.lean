import Yang.Text.Blank

/-!
This module contains references by name, with or without a prefix.
-/

namespace Yang

structure Reference where
  prefixId : Option String
  name : String
  deriving DecidableEq, Repr, Inhabited

namespace Reference

def ofText (s : String) : Reference :=
  match Text.pieces ':' s.toList with
  | first :: second :: more =>
    ⟨some (String.ofList first), String.ofList ([':'].intercalate (second :: more))⟩
  | _ => ⟨none, s⟩

end Reference

end Yang
