/-!
This module contains the reading of line ends: on the way in, a carriage return, alone or before a line feed,
becomes one line feed.
-/

namespace Yang.Text

def universalNewlines : List Char → List Char
  | [] => []
  | '\r' :: '\n' :: rest => '\n' :: universalNewlines rest
  | c :: rest => (if c = '\r' then '\n' else c) :: universalNewlines rest

end Yang.Text
