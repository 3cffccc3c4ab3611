import Countersign.Json.Codec

/-!
Schemes in documents: the tag alone, or an object with the tag as its only key and nothing as its
value.
-/

namespace Countersign.Algorithm

/-- The scheme that a tag names. -/
def ofTag? (tag : String) : Option Algorithm :=
  if tag = mlDsa44.tag then some mlDsa44
  else if tag = falcon512.tag then some falcon512
  else none

def json (algorithm : Algorithm) : String :=
  Json.writeText algorithm.tag

def ofValue? : Json.Value → Option Algorithm
  | .text (some tag) => ofTag? tag
  | .object [(some tag, .null)] => ofTag? tag
  | _ => none

def ofJson (document : String) : Except Error Algorithm :=
  Json.readDocument .any ofValue? document

end Countersign.Algorithm
