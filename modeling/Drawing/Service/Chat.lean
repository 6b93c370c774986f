import Drawing.Prompt.Basic
import Drawing.Json.Number
import Drawing.Service.Settings

/-!
# `Drawing/Service/Chat.lean` — asking a chat service

A model is asked through a chat service: the instructions and the task are its two messages, and what
comes back is text, either as a whole or in blocks of which only those of text count. An empty text is as
good as no answer.
-/

namespace Drawing

/-- What comes back from a chat service. -/
inductive ChatReply (α : Type) where
  /-- The content of an answer. -/
  | content (value : Json α)
  /-- Why there is no answer. -/
  | failure (reason : String)

/-- How a chat service is set up. -/
structure ChatSetup (α : Type) where
  model : String
  apiKey : String
  maxTokens : Int
  temperature : α

/-- A finished talk: how the service was set up, what it was told and what it answered. -/
structure Exchange (α : Type) where
  setup : ChatSetup α
  prompt : Prompt
  text : String

variable {α : Type}

/-- The set-up under some settings. -/
def Settings.chatSetup (s : Settings α) : ChatSetup α := ⟨s.model, s.apiKey, s.maxTokens, s.temperature⟩

/-- The text in a block, if it is one of text. -/
def blockText? : Json α → Option (Json α)
  | .str s => some (.str s)
  | .obj fields =>
    match Table.get? fields "type" with
    | some (.str "text") => some ((Table.get? fields "text").getD (.str ""))
    | _ => none
  | _ => none

/-- Joins texts, the first of which has an index. -/
def joinTexts (index : Nat) : List (Json α) → Except (Fault α) String
  | [] => .ok ""
  | .str s :: rest => do return s ++ (← joinTexts (index + 1) rest)
  | v :: _ => .error (.kind (.notJoinable index v.kindName))

/-- The text of an answer. An object counts as the list of the names of its fields. -/
def contentText : Json α → Except (Fault α) String
  | .str s => .ok s
  | .arr blocks => joinTexts 0 (blocks.filterMap blockText?)
  | .obj fields => .ok (String.join (Table.names fields))
  | v => .error (.kind (.notIterable v.kindName))

/-- The text of what came back. -/
def ChatReply.text : ChatReply α → Except (Fault α) String
  | failure reason => .error (.service ("Generation request failed: " ++ reason))
  | content value => do
    let text ← contentText value
    if stripBlank text = "" then .error (.service "Generation returned an empty response") else return text

/-- Asks a chat service, if there is a key for it. -/
def askChat (s : Settings α) (prompt : Prompt) (service : ChatSetup α → Prompt → ChatReply α) :
    Except (Fault α) (Exchange α) :=
  if s.apiKey = "" then .error (.service "LLM not configured, set ANTHROPIC_API_KEY in .env")
  else do return ⟨s.chatSetup, prompt, ← (service s.chatSetup prompt).text⟩

end Drawing
