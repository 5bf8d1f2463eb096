import ChatRelay.Completion.Endpoint
import ChatRelay.Config.Environment
import ChatRelay.Session.State
import ChatRelay.Tools.Catalog
import ChatRelay.Turn.Context
import ChatRelay.Web.SocketAddress
import ChatRelay.Yaml.Decode

/-! # Settings of the relay

Settings come from a YAML text of seven sections, all of them optional, and then from variables of
the environment that set single values. What is not set has a default. -/

namespace ChatRelay.Config

open Yaml (Decoder Fields record text boolean natural nullable list table)

/-- How a bridge server is started. -/
structure ServerCommand where
  command : String
  arguments : List String
  /-- Variables set in addition. -/
  environment : List (String × String)
  directory : Option String
  deriving DecidableEq, Repr, Inhabited

/-- The settings. -/
structure Settings where
  /-- The address to listen on, as it is written. -/
  bind : String := "127.0.0.1:8787"
  baseUrl : Option String := none
  apiKey : Option String := none
  model : String := "google-ai-studio/gemini-2.5-flash"
  maxTokens : Nat := 16000
  /-- Milliseconds between the chunks of a simulated answer. -/
  chunkDelay : Nat := 30
  systemPrompt : String := Turn.defaultDirective
  enabledTools : List String :=
    [Tools.searchTool, Tools.weatherTool, Tools.storeTool, Tools.bridgeTool]
  databasePath : Option String := none
  searchKey : Option String := none
  searchEndpoint : Option String := none
  servers : List (String × ServerCommand) := []
  /-- Milliseconds that a call of a bridge tool may take. -/
  callTimeout : Option Nat := none
  logsJson : Bool := false
  deriving DecidableEq, Repr, Inhabited

/-! ### From a text -/

/-- Reads how a bridge server is started. -/
def ServerCommand.decode : Decoder ServerCommand := fun n => do
  let fs ← record ["command", "args", "env", "cwd"] n
  return { command := ← fs.required "command" text
           arguments := ← fs.defaulted "args" [] (list text)
           environment := ← fs.defaulted "env" [] (table text)
           directory := ← fs.defaulted "cwd" none (nullable text) }

namespace Settings

/-- Reads settings. -/
def decode : Decoder Settings := fun n => do
  let top ← record ["server", "completion", "session", "storage", "tools", "bridge", "logging"] n
  let fieldsOf (name : String) (names : List String) : Option Fields :=
    top.defaulted name [] (record names)
  let server ← fieldsOf "server" ["bind"]
  let completion ← fieldsOf "completion"
    ["base_url", "api_key", "default_model", "max_tokens", "mock_chunk_delay_ms"]
  let session ← fieldsOf "session" ["default_system_prompt", "default_enabled_tools"]
  let storage ← fieldsOf "storage" ["database_path"]
  let tools ← fieldsOf "tools" ["search_api_key", "search_endpoint"]
  let bridge ← fieldsOf "bridge" ["servers", "call_timeout_ms"]
  let logging ← fieldsOf "logging" ["json"]
  let d : Settings := {}
  return { bind := ← server.defaulted "bind" d.bind text
           baseUrl := ← completion.defaulted "base_url" d.baseUrl (nullable text)
           apiKey := ← completion.defaulted "api_key" d.apiKey (nullable text)
           model := ← completion.defaulted "default_model" d.model text
           maxTokens := ← completion.defaulted "max_tokens" d.maxTokens (natural 32)
           chunkDelay := ← completion.defaulted "mock_chunk_delay_ms" d.chunkDelay (natural 64)
           systemPrompt := ← session.defaulted "default_system_prompt" d.systemPrompt text
           enabledTools := ← session.defaulted "default_enabled_tools" d.enabledTools (list text)
           databasePath := ← storage.defaulted "database_path" d.databasePath (nullable text)
           searchKey := ← tools.defaulted "search_api_key" d.searchKey (nullable text)
           searchEndpoint := ← tools.defaulted "search_endpoint" d.searchEndpoint (nullable text)
           servers := ← bridge.defaulted "servers" d.servers (table ServerCommand.decode)
           callTimeout := ← bridge.defaulted "call_timeout_ms" d.callTimeout (nullable (natural 64))
           logsJson := ← logging.defaulted "json" d.logsJson boolean }

/-- The settings of a text, its expressions replaced first. A text of blanks sets nothing. -/
def ofText (env : Environment) (s : String) : Except Yaml.Fault Settings :=
  let s := expand env s
  if Text.isBlankText s then .ok {} else Yaml.decode decode s

/-! ### From the environment -/

/-- The variables that set single values, where they hold more than blanks. -/
def override (env : Environment) (s : Settings) : Settings :=
  { s with
    baseUrl := (env.getFilled? "AGENT_RELAY_BASE_URL").orElse fun _ => s.baseUrl
    apiKey := (env.getFilled? "AGENT_RELAY_API_KEY").orElse fun _ => s.apiKey
    model := (env.getFilled? "AGENT_RELAY_MODEL").getD s.model
    bind := (env.getFilled? "AGENT_RELAY_BIND").getD s.bind
    databasePath := (env.getFilled? "AGENT_RELAY_DB").orElse fun _ => s.databasePath
    searchKey := (env.getFilled? "SERPAPI_KEY").orElse fun _ => s.searchKey }

/-! ### What settings mean -/

/-- The live endpoint, none if completions are simulated. -/
def endpoint? (s : Settings) : Option Completion.Endpoint :=
  Completion.Endpoint.of? s.baseUrl s.apiKey

/-- The settings of a new session. -/
def sessionDefaults (s : Settings) : Session.Defaults := ⟨s.model, s.systemPrompt, s.enabledTools⟩

/-- The address to listen on. -/
def address? (s : Settings) : Option Web.SocketAddress := Web.SocketAddress.read? (Text.trim s.bind)

end Settings

end ChatRelay.Config
