import ChatRelay.Completion.Message

/-! # The catalog of tools

Four tools are built in. The bridge may offer more; one that carries the name of a built-in tool is
left out. Of the catalog a session offers the tools that it has enabled, in the order of the
catalog. -/

namespace ChatRelay.Tools

open Json Completion

/-! ### Built-in tools -/

/-- The weather report. -/
def weatherTool : String := "get_weather"

/-- The web search. -/
def searchTool : String := "web_search"

/-- The structured store. -/
def storeTool : String := "d1_db"

/-- The bridge itself. -/
def bridgeTool : String := "mcp_server"

/-- The names of the built-in tools, in catalog order. -/
def builtinNames : List String := [weatherTool, searchTool, storeTool, bridgeTool]

/-- The name of a built-in tool. -/
def isBuiltin (name : String) : Bool := builtinNames.contains name

/-- A parameter in a schema. -/
def parameter (kind description : String) : List (String × Value) :=
  [("description", .str description), ("type", .str kind)]

/-- The schema of an object with some parameters. -/
def objectSchema (properties : List (String × Value)) (required : List String) : Value :=
  .obj [("properties", .obj (Object.ofList properties)), ("required", .arr (required.map .str)),
    ("type", .str "object")]

/-- The definitions of the built-in tools. -/
def builtinDefinitions : List ToolDefinition :=
  [.function weatherTool "Get current weather information for a location" <|
    objectSchema [("location", .obj (parameter "string" "The city or location name"))] ["location"],
   .function searchTool "Search the web or fetch content from a specific URL" <|
    objectSchema [("query", .obj (parameter "string" "Search query")),
      ("url", .obj (parameter "string"
        "Specific URL to fetch content from (alternative to search)")),
      ("num_results", .obj (("default", .num (.int 5)) :: parameter "number"
        "Number of search results to return (default: 5, max: 10)"))] [],
   .function storeTool "Execute SQL queries against the structured edge store" <|
    objectSchema [("query", .obj (parameter "string"
      "The SQL query to execute (SELECT, INSERT, etc)"))] ["query"],
   .function bridgeTool "Interact with external systems through the MCP bridge" <|
    objectSchema [("action", .obj (parameter "string" "Action to perform (list, call, connect)")),
      ("endpoint", .obj (parameter "string" "The target MCP service endpoint"))] ["action"]]

/-! ### The catalog -/

/-- The built-in tools, then what the bridge offers under other names. -/
def catalog (offered : List ToolDefinition) : List ToolDefinition :=
  builtinDefinitions ++ offered.filter fun t => !isBuiltin t.name

/-- The enabled tools, in catalog order. -/
def filterEnabled (enabled : List String) (tools : List ToolDefinition) : List ToolDefinition :=
  tools.filter fun t => enabled.contains t.name

end ChatRelay.Tools
