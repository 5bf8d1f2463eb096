import ChatRelay.Bridge.ToolBridge
import ChatRelay.Text.Blank
import ChatRelay.Tools.Catalog
import ChatRelay.Tools.Result
import ChatRelay.Tools.Search
import ChatRelay.World

/-! # Running tools

A call names a tool and brings arguments. The built-in tools are run here, every other name goes to
the bridge. Running never fails: whatever goes wrong becomes an error result, so that one call
cannot spoil the others of its turn. -/

namespace ChatRelay.Tools

open Json Bridge

/-! ### Faults -/

/-- What can go wrong with a call. -/
inductive Fault
  /-- An argument is missing or blank. -/
  | missingArgument (tool argument : String)
  /-- A web server did not deliver. -/
  | backend (name reason : String)
  /-- The bridge failed. -/
  | bridge (f : Bridge.Failure)
  deriving DecidableEq, Repr, Inhabited

/-- The text shown for a fault. -/
def Fault.message : Fault → String
  | missingArgument tool argument => s!"missing required argument '{argument}' for {tool}"
  | backend name reason => s!"{name} request failed: {reason}"
  | bridge f => f.message

/-! ### Arguments -/

/-- The trimmed text of an argument, if it is a text and not blank. -/
def textArgument? (arguments : Object) (key : String) : Option String :=
  ((arguments.find? key).bind Value.str?).bind fun s =>
    let t := Text.trim s
    if t.isEmpty then none else some t

/-- A decimal number of at most 64 bits; a plus sign may stand in front. -/
def parseCount? (s : String) : Option Nat :=
  let ds := match s.toList with
    | '+' :: r => r
    | r => r
  let n := digitsValue ds
  if !ds.isEmpty && ds.all Char.isDigit && n < Nat.pow 2 64 then some n else none

/-- The number of search results asked for: a number or the text of one, at least 1 and at most 10,
and 5 if nothing usable is given. -/
def resultCount (arguments : Object) : Nat :=
  let asked := match arguments.find? "num_results" with
    | some (.num (.int i)) => some i.toNat
    | some (.num (.real x)) => some x.floorNat
    | some (.str s) => parseCount? (Text.trim s)
    | _ => none
  max 1 (min 10 (asked.getD 5))

/-! ### Built-in tools -/

/-- The conditions that a fabricated report chooses from. -/
def weatherConditions : List String := ["Clear", "Partly cloudy", "Overcast", "Light rain", "Windy"]

/-- A fabricated report: 20 to 29 degrees, one of the conditions, half humid. -/
def fabricateWeather (location : String) (d : Draws) : WeatherReport × Draws :=
  let (t, d) := d.below 10
  let (c, d) := d.below weatherConditions.length
  (⟨location, 20 + t, weatherConditions.getD c "Clear", 50⟩, d)

/-- The bytes of a page that are read: one more than are shown, enough to know that it was cut. -/
def pageLimit : Nat := 8000

/-- Reads the pieces of a body one by one until `limit` bytes are there: the bytes read, and whether
they are that many. -/
def readPieces (limit : Nat) (before : List UInt8) : List (List UInt8) → List UInt8 × Bool
  | [] => (before, false)
  | piece :: rest =>
    let body := before ++ piece.take (limit - before.length)
    if limit ≤ body.length then (body, true) else readPieces limit body rest

/-- The text of a page: what was read of it, decoded, trimmed and cut. -/
def pageText (url : String) (body : List UInt8) : String :=
  s!"Content from {url}:\n\n{Text.truncate pageLimit (Text.trim (Text.lossy body))}"

/-- The result of fetching a page. A body that breaks off counts as long as enough of it arrived. -/
def pageResult (url : String) (a : Web.Answer) : Except Fault String :=
  if !a.isSuccess then .error (.backend "fetch" s!"HTTP {a.status} from {url}")
  else
    match readPieces (pageLimit + 1) [] a.pieces, a.breaksOff with
    | (_, false), some reason => .error (.backend "fetch" reason)
    | (body, _), _ => .ok (pageText url body)

/-- The result of a search. -/
def searchResult (query : String) (count : Nat) (a : Web.Answer) : Except Fault String :=
  if !a.isSuccess then .error (.backend "search" s!"HTTP {a.status}")
  else
    match a.text with
    | .error reason => .error (.backend "search" reason)
    | .ok body =>
      match decodeText SearchAnswer.decode body with
      | .error _ => .error (.backend "search" "error decoding response body")
      | .ok answer =>
        match answer.error with
        | some e => .error (.backend "search" e)
        | none => .ok (answer.format query count)

/-- The result of a search without a key. -/
def simulatedSearch (query : String) : String :=
  s!"[SIMULATED SEARCH] Results for: \"{query}\". Configure a search API key for real results."

/-- The tools that the bridge lists, as a text. -/
def bridgeListing (tools : List Completion.ToolDefinition) : String :=
  if tools.isEmpty then "MCP bridge active. No bridge tools are available."
  else "MCP bridge tools:\n" ++ "\n".intercalate (tools.map fun t =>
    s!"- {t.name}: {t.description}")

/-! ### The executor -/

/-- Where searches go by default. -/
def defaultSearchEndpoint : String := "https://serpapi.com/search"

/-- What running tools takes. -/
structure Executor (σ : Type) where
  network : Web.Network σ
  bridge : ToolBridge σ
  /-- Without a key searches are simulated. -/
  searchKey : Option String
  searchEndpoint : String

namespace Executor

variable {σ : Type}

/-- An executor; a blank key is none. -/
def new (network : Web.Network σ) (bridge : ToolBridge σ) (searchKey : Option String)
    (searchEndpoint : Option String) : Executor σ :=
  { network, bridge
    searchKey := searchKey.filter fun k => !(Text.trim k).isEmpty
    searchEndpoint := searchEndpoint.getD defaultSearchEndpoint }

/-- Fetches a page. -/
def fetchPage (x : Executor σ) (url : String) : Act σ (Except Fault String) := do
  match ← Act.ask (x.network.send ⟨"GET", url, [], none⟩) with
  | .error reason => return .error (.backend "fetch" reason)
  | .ok a => return pageResult url a

/-- Fetches a page if a URL is given, else searches. -/
def search (x : Executor σ) (arguments : Object) : Act σ (Except Fault String) := do
  match textArgument? arguments "url" with
  | some url => x.fetchPage url
  | none =>
    let query := (textArgument? arguments "query").getD "latest news"
    let count := resultCount arguments
    match x.searchKey with
    | none => return .ok (simulatedSearch query)
    | some key =>
      match ← Act.ask (x.network.send (searchRequest x.searchEndpoint query key count)) with
      | .error reason => return .error (.backend "search" reason)
      | .ok a => return searchResult query count a

/-- Runs a statement against the store. -/
def queryStore (arguments : Object) : Act σ (Except Fault String) := do
  match textArgument? arguments "query" with
  | none => return .error (.missingArgument storeTool "query")
  | some query =>
    let n ← Act.draw Draws.next
    return .ok (s!"Structured store synchronized. Query processed: {query}. " ++
      s!"Transaction hash: 0x{String.ofList (Draws.hex 8 n)}.")

/-- Asks for the state of the bridge. -/
def bridgeStatus (x : Executor σ) (arguments : Object) : Act σ (Except Fault String) := do
  match textArgument? arguments "action" with
  | none => return .error (.missingArgument bridgeTool "action")
  | some action =>
    let endpoint := (textArgument? arguments "endpoint").getD "system-v1"
    if Text.asciiLower action = "list" then
      match ← Act.ask x.bridge.list with
      | .error f => return .error (.bridge f)
      | .ok tools => return .ok (bridgeListing tools)
    else
      return .ok s!"MCP bridge active. Action: {action}. Endpoint: {endpoint}. Tunnel established."

/-- Runs a tool that the bridge knows. -/
def viaBridge (x : Executor σ) (name : String) (arguments : Object) :
    Act σ (Except Fault String) := do
  match ← Act.ask (x.bridge.call name arguments) with
  | .error f => return .error (.bridge f)
  | .ok text => return .ok text

/-- A text or a fault as a result. -/
def toResult : Except Fault String → ToolResult
  | .ok text => .content text
  | .error f => .error f.message

/-- Runs a call. -/
def execute (x : Executor σ) (name : String) (arguments : Object) : Act σ ToolResult := do
  if name = weatherTool then
    let report ← Act.draw (fabricateWeather ((textArgument? arguments "location").getD "Global"))
    return .weather report
  else if name = searchTool then return toResult (← x.search arguments)
  else if name = storeTool then return toResult (← queryStore arguments)
  else if name = bridgeTool then return toResult (← x.bridgeStatus arguments)
  else return toResult (← x.viaBridge name arguments)

end Executor

end ChatRelay.Tools
