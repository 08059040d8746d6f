import CreativeStudio.Data.JsonText
import CreativeStudio.Schemas.Values
import CreativeStudio.Story.Stripping

/-!
# The JSON object in an answer

A model answers with a JSON object, maybe in a code fence, maybe with prose around it. What a fence
encloses is taken first, by a regular expression that knows nothing of JSON; then the text is read as
a whole, and when it cannot be read, the first object in it.
-/

namespace CreativeStudio.Generators
open Data Story

/-- The marker of a code fence. -/
def fence : Text := ['`', '`', '`']

/-- The tag of a fence around JSON. -/
def jsonTag : Text := ['j', 's', 'o', 'n']

/-! ## The regular expression -/

/-- The text before the next marker, if there is one. -/
def beforeFence : Text → Option Text
  | [] => none
  | c :: rest => if fence <+: c :: rest then some [] else (beforeFence rest).map (c :: ·)

/-- The group of `(.+?)` and the marker after it: at least one character. -/
def fenceGroup : Text → Option Text
  | [] => none
  | c :: rest => (beforeFence rest).map (c :: ·)

/-- The group behind `\s*`, which takes as much as it can and gives back what it must. -/
def groupAfterSpaces : Text → Option Text
  | [] => none
  | c :: rest => if isSpace c then (groupAfterSpaces rest).or (fenceGroup (c :: rest)) else fenceGroup (c :: rest)

/-- The group behind a marker: first behind the tag, if it is there. -/
def groupAfterFence (text : Text) : Option Text :=
  (if jsonTag <+: text then groupAfterSpaces (text.drop jsonTag.length) else none).or (groupAfterSpaces text)

/-- The search for the regular expression in `extract_json_object`: its group at the first place where it matches. -/
def searchFence : Text → Option Text
  | [] => none
  | c :: rest =>
    (if fence <+: c :: rest then groupAfterFence ((c :: rest).drop fence.length) else none).or (searchFence rest)

/-! ## The scanner -/

/-- The loop of `_scan_for_object`: the text up to the brace that brings the depth back to zero. -/
def scanFrom (depth : ℤ) (inString escaped : Bool) : Text → Option Text
  | [] => none
  | c :: rest =>
    if inString then
      if escaped then (scanFrom depth true false rest).map (c :: ·)
      else if c = '\\' then (scanFrom depth true true rest).map (c :: ·)
      else if c = '"' then (scanFrom depth false false rest).map (c :: ·)
      else (scanFrom depth true false rest).map (c :: ·)
    else if c = '"' then (scanFrom depth true escaped rest).map (c :: ·)
    else if c = '{' then (scanFrom (depth + 1) false escaped rest).map (c :: ·)
    else if c = '}' then
      if depth - 1 = 0 then some [c] else (scanFrom (depth - 1) false escaped rest).map (c :: ·)
    else (scanFrom depth false escaped rest).map (c :: ·)

/-- How `json.loads` fails: with a `JSONDecodeError`, or with another `ValueError`. -/
inductive LoadsError
  | decode (message : String)
  | value (message : String)
  deriving DecidableEq, Repr

/-- The exception that it is. -/
def LoadsError.toExc : LoadsError → Exc
  | .decode message => .value message
  | .value message => .value message

section
variable (loads : Text → Except LoadsError Value)

/-- `_scan_for_object`. -/
def scanForObject (text : Text) : Except Exc Value :=
  match text.dropWhile (· ≠ '{') with
  | [] => .error (.value "no JSON object found in model response")
  | found => match scanFrom 0 false false found with
    | none => .error (.value "JSON object in model response is not closed")
    | some object => (loads object).mapError LoadsError.toExc

/-- The value in a text without its fence. -/
def parseAnswer (text : Text) : Except Exc Value :=
  match loads text with
  | .ok value => .ok value
  | .error (.decode _) => scanForObject loads text
  | .error (.value message) => .error (.value message)

/-- The value is an object. -/
def asObject : Value → Except Exc (Dict Value)
  | .obj members => .ok members
  | value => .error (.value s!"expected a JSON object, got {typeName value}")

/-- The text that is read: what a fence encloses, or everything. -/
def answerText (rawText : Text) : Text :=
  let text := stripText rawText
  (searchFence text).elim text stripText

/-- `extract_json_object`. -/
def extractJsonObject (rawText : Text) : Except Exc (Dict Value) :=
  if stripText rawText = [] then .error (.value "model returned an empty response")
  else parseAnswer loads (answerText rawText) >>= asObject

end

end CreativeStudio.Generators
