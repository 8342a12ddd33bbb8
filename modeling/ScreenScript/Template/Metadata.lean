import ScreenScript.Json.Reader
import ScreenScript.Json.Records

namespace ScreenScript

structure Template.Metadata where
  id : Option String := none
  threshold : Option Float := none
  region : Option Region := none

namespace Template.Metadata

open Json

def toJson (m : Template.Metadata) : Json :=
  .object ((m.id.map fun id => ("id", Json.string id)).toList ++
    (m.threshold.map fun threshold => ("threshold", Json.real threshold)).toList ++
    (m.region.map fun region => ("region", region.toJson)).toList)

/-- The metadata that a JSON value writes. Any field may be missing or null, and no other is known. -/
def ofJson? (j : Json) : Option Template.Metadata := do
  match ← record? ["id", "threshold", "region"] true j with
  | [id, threshold, region] =>
    return {
      id := ← optional? string? id
      threshold := ← optional? float? threshold
      region := ← optional? Region.ofJson? region }
  | _ => none

def read? (s : String) : Option Template.Metadata :=
  (Json.read? s).bind ofJson?

end Template.Metadata

end ScreenScript
