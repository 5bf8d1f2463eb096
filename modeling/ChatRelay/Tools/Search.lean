import ChatRelay.Json.Decode
import ChatRelay.Web.Exchange

/-! # Web searches

A search is sent with its query, its key and the number of results, and answered with a JSON text: a
knowledge graph, an answer box and organic results, each of which may be missing, or an error. The
text of a search puts what is there into sections. -/

namespace ChatRelay.Tools

open Json

/-! ### Answers -/

/-- An entry of the knowledge graph. -/
structure KnowledgeGraph where
  title : Option String
  description : Option String
  deriving DecidableEq, Repr, Inhabited

/-- A direct answer. -/
structure AnswerBox where
  answer : Option String
  snippet : Option String
  title : Option String
  deriving DecidableEq, Repr, Inhabited

/-- A page that was found. -/
structure OrganicResult where
  title : Option String
  link : Option String
  snippet : Option String
  deriving DecidableEq, Repr, Inhabited

/-- The answer to a search. -/
structure SearchAnswer where
  knowledgeGraph : Option KnowledgeGraph
  answerBox : Option AnswerBox
  organicResults : List OrganicResult
  error : Option String
  deriving DecidableEq, Repr, Inhabited

namespace SearchAnswer

/-- Reads an entry of the knowledge graph. -/
def decodeGraph : Decoder KnowledgeGraph := fun room d => do
  let s ← record ["title", "description"] room d
  return { title := ← s.optional "title" text, description := ← s.optional "description" text }

/-- Reads a direct answer. -/
def decodeBox : Decoder AnswerBox := fun room d => do
  let s ← record ["answer", "snippet", "title"] room d
  return { answer := ← s.optional "answer" text, snippet := ← s.optional "snippet" text
           title := ← s.optional "title" text }

/-- Reads a page. -/
def decodeResult : Decoder OrganicResult := fun room d => do
  let s ← record ["title", "link", "snippet"] room d
  return { title := ← s.optional "title" text, link := ← s.optional "link" text
           snippet := ← s.optional "snippet" text }

/-- Reads the answer to a search. -/
def decode : Decoder SearchAnswer := fun room d => do
  let s ← record ["knowledge_graph", "answer_box", "organic_results", "error"] room d
  return { knowledgeGraph := ← s.defaulted "knowledge_graph" none (nullable decodeGraph)
           answerBox := ← s.defaulted "answer_box" none (nullable decodeBox)
           organicResults := ← s.defaulted "organic_results" [] (list decodeResult)
           error := ← s.defaulted "error" none (nullable text) }

/-! ### Sections -/

/-- The section of the knowledge graph, if it has a title and a description. -/
def graphSection (a : SearchAnswer) : Option String := do
  let g ← a.knowledgeGraph
  let title ← g.title
  let description ← g.description
  return s!"**{title}**\n{description}"

/-- The section of the answer box: its answer, else its snippet. -/
def boxSection (a : SearchAnswer) : Option String := do
  let b ← a.answerBox
  match b.answer, b.snippet with
  | some answer, _ => return s!"**Answer**: {answer}"
  | none, some snippet =>
    let title := b.title.getD "Answer"
    return s!"**{title}**: {snippet}"
  | none, none => none

/-- The pages that have a title and a link. -/
def pages (a : SearchAnswer) : List (String × String × Option String) :=
  a.organicResults.filterMap fun r => do return (← r.title, ← r.link, r.snippet)

/-- The section of the page with a number. -/
def pageSection (number : Nat) (page : String × String × Option String) : String :=
  s!"{number}. **{page.1}**\n   Link: {page.2.1}"
    ++ page.2.2.elim "" fun snippet => s!"\n   {snippet}"

/-- The text of a search with at most `limit` pages. -/
def format (a : SearchAnswer) (query : String) (limit : Nat) : String :=
  let sections := a.graphSection.toList ++ a.boxSection.toList
    ++ (a.pages.take limit).mapIdx fun i page => pageSection (i + 1) page
  if sections.isEmpty then s!"No results for \"{query}\"." else "\n\n".intercalate sections

end SearchAnswer

/-- The request of a search. -/
def searchRequest (endpoint query key : String) (count : Nat) : Web.Request :=
  { method := "GET"
    url := Web.withQuery endpoint
      [("engine", "google"), ("q", query), ("api_key", key), ("num", toString count)]
    headers := []
    body := none }

end ChatRelay.Tools
