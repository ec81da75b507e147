import SketchPrep.Failure
import SketchPrep.Log
import SketchPrep.Tag.Stage

namespace SketchPrep.Tag

def strayRows (listing : String) : List (List Char) :=
  (((Text.lines listing.toList).map Text.trim).filter (!·.isEmpty)).filter fun row => (ofRow? row).isNone

def newlySkipped (before after : List Tag) : List (String × SkipReason) :=
  (before.zip after).filterMap fun (t, u) =>
    if t.isSkipped then none else u.skip.map fun reason => (u.name, reason)

def unscannedFiles (t : FileTree) (tags : List Tag) : List (String × Failure) :=
  (tags.map (·.file)).eraseDups.filterMap fun file =>
    match t.readText ⟨file⟩ with
    | .ok _ => none
    | .error f => some (file, f)

def stageEvents (t : FileTree) : List Stage → List Tag → List LogEvent
  | [], tags =>
    [.debug (toString tags.length ++ " tags, " ++ toString (tags.countP (!·.isSkipped)) ++ " kept")]
  | stage :: rest, tags =>
    let after := stage.run t.textAt? tags
    (newlySkipped tags after).map (fun (name, reason) =>
      .debug ("skipping tag `" ++ name ++ "`: " ++ reason.text)) ++
    (if stage = .markCLinkage then
      (unscannedFiles t tags).map fun (file, f) =>
        .debug ("cannot scan " ++ file ++ " for " ++ cLinkageWords ++ ": " ++ f.message)
    else []) ++
    stageEvents t rest after

def eventsOf (t : FileTree) (listing : String) : List LogEvent :=
  (strayRows listing).map (fun row => .debug ("ignoring malformed tag record: " ++ String.ofList row)) ++
    stageEvents t stages (parse listing)

end SketchPrep.Tag
