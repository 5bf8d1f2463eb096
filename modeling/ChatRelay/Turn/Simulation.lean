import ChatRelay.Completion.Call
import ChatRelay.Text.LetterCase
import ChatRelay.Tools.Catalog
import ChatRelay.Tools.Result

/-! # Simulated completions

Without a live endpoint a turn is answered locally. Words in the message pick at most one of the
offered tools; the reply then announces a call of it. A message that picks none is acknowledged.
After the call the follow-up text retells the results. -/

namespace ChatRelay.Turn

open Json Completion Tools

/-! ### Topics -/

/-- What a message may be about. -/
inductive Topic
  | weather | search | store | bridge
  deriving DecidableEq, Repr, Inhabited

namespace Topic

/-- The topics in the order in which they are tried. -/
def all : List Topic := [weather, search, store, bridge]

/-- The tool that serves a topic. -/
def tool : Topic → String
  | weather => weatherTool
  | search => searchTool
  | store => storeTool
  | bridge => bridgeTool

/-- The words that point to a topic. -/
def keywords : Topic → List String
  | weather => ["weather", "temperature", "forecast", "rain", "sunny"]
  | search => ["search", "look up", "lookup", "google", "news", "find"]
  | store => ["database", "sql", "query", "table", "store", "record"]
  | bridge => ["mcp", "bridge", "integration", "external"]

/-- A text in small letters points to a topic. -/
def mentionedIn (small : String) (t : Topic) : Bool := t.keywords.any (Text.occurs · small)

/-- The first topic that the message points to and whose tool is offered. -/
def of? (message : String) (offered : List ToolDefinition) : Option Topic :=
  let small := Text.lower message
  all.find? fun t => offered.any (·.name == t.tool) && t.mentionedIn small

end Topic

/-! ### Places -/

/-- The text after the last ` in `, if there is one; capitals count as small letters. -/
def afterLastIn? (found : Option (List Char)) : List Char → Option (List Char)
  | [] => found
  | c :: r =>
    let rest := c :: r
    if (rest.take 4).map Char.toLower = " in ".toList then afterLastIn? (some (rest.drop 4)) r
    else afterLastIn? found r

/-- An ASCII character that is neither letter, digit, blank nor control. -/
def isPunctuation (c : Char) : Bool :=
  ('!' ≤ c && c ≤ '/') || (':' ≤ c && c ≤ '@') || ('[' ≤ c && c ≤ (Char.ofNat 0x60))
    || (Char.ofNat 0x7B ≤ c && c ≤ '~')

/-- The place that a message asks about. -/
def placeIn? (message : String) : Option String :=
  match afterLastIn? none message.toList with
  | none => none
  | some cs =>
    let place := Text.trimChars (Text.dropEndChars isPunctuation (Text.trimChars cs))
    if place.isEmpty then none else some (String.ofList place)

/-! ### Replies -/

/-- The place of a message that names none. -/
def anywhere : String := "Global"

/-- The number of search results that a simulated call asks for. -/
def simulatedResultCount : Int := 5

/-- The text that announces a call, and its arguments. -/
def announce (message : String) : Topic → String × Object
  | .weather =>
    let place := (placeIn? message).getD anywhere
    (s!"Let me check the current weather in {place} for you. ", [("location", .str place)])
  | .search =>
    ("I'll search the web for that. ",
      [("num_results", .num (.int simulatedResultCount)), ("query", .str (Text.trim message))])
  | .store =>
    ("Running that against the structured store. ",
      [("query", .str "SELECT * FROM records LIMIT 10")])
  | .bridge => ("Checking the MCP bridge. ", [("action", .str "list")])

/-- The reply to a message that picks no tool. -/
def acknowledgement (message : String) : String :=
  let preview := String.ofList ((Text.trimChars message.toList).take 80)
  s!"I received your message: \"{preview}\". No completion backend is configured, so this is a " ++
    "simulated reply. Ask about the weather, a web search, the data store or the MCP bridge to see " ++
    "tools in action."

/-- The simulated reply to a message: its text, and at most one call. -/
def simulatedReply (message : String) (offered : List ToolDefinition) (d : Draws) :
    (String × List ToolCall) × Draws :=
  match Topic.of? message offered with
  | none => ((acknowledgement message, []), d)
  | some t =>
    let (text, arguments) := announce message t
    let (id, d) := d.callId
    ((text, [⟨id, t.tool, arguments, (Value.obj arguments).text⟩]), d)

/-! ### Follow-up -/

/-- The characters of a result that are quoted. -/
def quoteLimit : Nat := 280

/-- The start of a text, marked if it is cut. -/
def quoted (text : String) : String :=
  if text.length ≤ quoteLimit then text
  else String.ofList (text.toList.take quoteLimit) ++ "..."

/-- The sentence about one result. -/
def retell (r : ToolCallRecord) : String :=
  match r.result with
  | .weather w =>
    s!"It is currently {w.temperature}°C and {Text.lower w.condition} in {w.location}, " ++
      s!"with {w.humidity}% humidity."
  | .content t => s!"Here is what {r.name} returned: {quoted t}"
  | .error e => s!"The {r.name} tool failed: {e}"

/-- The simulated follow-up. -/
def simulatedFollowUp (records : List ToolCallRecord) : String :=
  "\n\n".intercalate (records.map retell)

end ChatRelay.Turn
