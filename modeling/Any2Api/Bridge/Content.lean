import Any2Api.Bridge.Fields
import Any2Api.Bridge.TargetProfile

/-! Message content on its way to the target: content parts, texts and
reasoning summaries. -/
namespace Any2Api.Bridge

open Any2Api.Json OpenAiChat

def imageDetail (value : Option Value) : Except ProtocolError (Option String) :=
  match value with
  | none | some .null => .ok none
  | some (.string detail) =>
    if detail ∈ ["auto", "low", "high", "original"] then .ok (some detail)
    else .error (invalid "input_image.detail must be auto, low, high, or original")
  | some _ => .error (invalid "input_image.detail must be auto, low, high, or original")

def convertText (part : Value) : Except ProtocolError Value := do
  let text ← requiredString (part.get? "text") "content text"
  pure (.obj [("type", .string "text"), ("text", .string text)])

variable (profile : CompletionsProfile)

def convertImage (part : Value) : Except ProtocolError Value :=
  if !profile.supportsImageUrl then
    .error (invalid "Chat target does not support image_url content")
  else do
    let url ← requiredString (part.get? "image_url") "input_image.image_url"
    match ← imageDetail (part.get? "detail") with
    | none =>
      pure (.obj [("type", .string "image_url"), ("image_url", .obj [("url", .string url)])])
    | some detail =>
      if !profile.supportsImageDetail then
        throw (invalid "Chat target does not support image detail")
      else
        pure (.obj [("type", .string "image_url"),
          ("image_url", .obj [("url", .string url), ("detail", .string detail)])])

def convertAudio (part : Value) : Except ProtocolError Value :=
  if !profile.supportsInputAudio then
    .error (invalid "Chat target does not support input_audio content")
  else
    match (part.get? "input_audio").bind Value.asObject with
    | none => .error (invalid "input_audio.input_audio must be an object")
    | some audio => do
        let data ← requiredString (audio.get? "data") "input_audio.data"
        let format ← requiredString (audio.get? "format") "input_audio.format"
        if format ≠ "wav" ∧ format ≠ "mp3" then
          throw (invalid "input_audio.format must be wav or mp3")
        else
          pure (.obj [("type", .string "input_audio"),
            ("input_audio", .obj [("data", .string data), ("format", .string format)])])

/-- Copy a member of a file part. -/
def fileField (part : Value) (file : Object) (field : String) : Except ProtocolError Object :=
  match part.get? field with
  | none => .ok file
  | some value => do
      let text ← requiredString (some value) "input_file field"
      pure (file.insert field (.string text))

def convertFile (part : Value) : Except ProtocolError Value :=
  if !profile.supportsFile then .error (invalid "Chat target does not support file content")
  else do
    let file ← ["file_id", "file_data", "filename"].foldlM (fileField part) []
    if (Object.containsKey file "file_id").toNat + (Object.containsKey file "file_data").toNat ≠ 1
    then throw (invalid "input_file must contain exactly one of file_id or file_data")
    else pure (.obj [("type", .string "file"), ("file", .object file)])

def convertPart (role : String) (part : Value) : Except ProtocolError Value :=
  match (part.get? "type").bind Value.asStr with
  | none => .error (invalid "message content part type is required")
  | some kind =>
    if kind = "input_text" ∨ kind = "output_text" ∨ kind = "text" then convertText part
    else if kind = "input_image" ∧ role = "user" then convertImage profile part
    else if kind = "input_audio" ∧ role = "user" then convertAudio profile part
    else if kind = "input_file" ∧ role = "user" then convertFile profile part
    else .error (.unsupportedValue "message content part type" kind)

/-- The texts of parts that have one. -/
def partTexts (parts : List Value) : List String :=
  parts.filterMap fun part => (part.get? "text").bind Value.asStr

/-- An assistant's content is one text; any other content stays in parts. -/
def convertContent (value : Value) (role : String) : Except ProtocolError Value :=
  match value with
  | .string text => .ok (.string text)
  | .array parts => do
      let converted ← parts.mapM (convertPart profile role)
      pure (if role = "assistant" then .string (String.join (partTexts converted))
        else .array converted)
  | _ => .error (invalid "message content must be a string or array")

/-- The text of an element of a text array. -/
def elementText (value : Value) : Except ProtocolError String :=
  match value.asStr.or ((value.get? "text").bind Value.asStr) with
  | some text => .ok text
  | none => .error (invalid "text array contains an unsupported value")

def textValue (platform : Platform) (value : Value) : Except ProtocolError String :=
  match value with
  | .string text => .ok text
  | .array values => do return "\n".intercalate (← values.mapM elementText)
  | other => .ok (platform.toJson other)

/-- The summary texts of a reasoning item; other parts are skipped. -/
def reasoningText (value : Value) : String :=
  "\n".intercalate (partTexts (((value.get? "summary").bind Value.asArray).getD []))

/-- The message field that carries reasoning to the target. -/
def reasoningField : Except ProtocolError String :=
  match profile.reasoningResponse with
  | .reasoningContent | .reasoningContentOrReasoning => .ok "reasoning_content"
  | .reasoning => .ok "reasoning"
  | .unsupported => .error (invalid "Chat target cannot represent reasoning history")

/-- Reasoning is appended to what the message already has. -/
def insertReasoning (message : Value) (reasoning : String) : Except ProtocolError Value := do
  let field ← reasoningField profile
  pure (match message.get? field with
    | some (.string existing) => message.set field (.string (existing ++ reasoning))
    | _ => message.set field (.string reasoning))

end Any2Api.Bridge
