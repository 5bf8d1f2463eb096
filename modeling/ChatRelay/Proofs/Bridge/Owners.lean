import ChatRelay.Proofs.Bridge.Listings
import Mathlib.Data.List.Nodup

/-! # Which server owns a tool

In a round of a listing servers are asked in order. The first server that lists a tool of a name
owns it, with the first such tool of its own (`Owns`). Keeping the first of equal names finds just
the owners (`firstNamed?_distinct`, `owns_iff`), so the tools that are returned and the table that
is set agree (`agrees_settled`). -/

namespace ChatRelay.Bridge

open Json Completion Client

/-! ### The first of equal names -/

/-- The first tool of a name, with its server. -/
def firstNamed? (name : String) (found : List (String × ToolDefinition)) :
    Option (String × ToolDefinition) :=
  found.find? (·.2.name == name)

/-- No name twice. -/
def DistinctNames (found : List (String × ToolDefinition)) : Prop := (found.map (·.2.name)).Nodup

theorem firstNamed?_append (name : String) (found more : List (String × ToolDefinition)) :
    firstNamed? name (found ++ more) = (firstNamed? name found).or (firstNamed? name more) :=
  List.find?_append

theorem name_of_firstNamed? {name : String} {found : List (String × ToolDefinition)}
    {x : String × ToolDefinition} (h : firstNamed? name found = some x) : x.2.name = name := by
  simpa using List.find?_some h

theorem firstNamed?_eq_some_iff {found : List (String × ToolDefinition)} (h : DistinctNames found)
    {name : String} {x : String × ToolDefinition} :
    firstNamed? name found = some x ↔ x ∈ found ∧ x.2.name = name := by
  constructor
  · exact fun hx => ⟨List.mem_of_find?_eq_some hx, name_of_firstNamed? hx⟩
  · rintro ⟨hx, rfl⟩
    obtain ⟨y, hy⟩ : ∃ y, firstNamed? x.2.name found = some y :=
      Option.isSome_iff_exists.mp (List.find?_isSome.mpr ⟨x, hx, by simp⟩)
    rw [hy, List.inj_on_of_nodup_map h (List.mem_of_find?_eq_some hy) hx (name_of_firstNamed? hy)]

theorem any_addTool {acc : List (String × ToolDefinition)} {x : String × ToolDefinition} :
    acc.any (·.2.name == x.2.name) = true ↔ x.2.name ∈ acc.map (·.2.name) := by
  simp only [List.any_eq_true, beq_iff_eq, List.mem_map]

/-- Adding tools keeps names distinct, and the first tool of each name. -/
theorem foldl_addTool (found : List (String × ToolDefinition)) :
    ∀ acc : List (String × ToolDefinition),
    DistinctNames acc.reverse →
    DistinctNames (found.foldl addTool acc).reverse ∧
      ∀ name, firstNamed? name (found.foldl addTool acc).reverse =
        firstNamed? name (acc.reverse ++ found) := by
  induction found with
  | nil =>
    intro acc h
    exact ⟨h, fun name => by rw [List.append_nil]; rfl⟩
  | cons x found ih =>
    intro acc h
    rw [List.foldl_cons, addTool]
    split
    next old =>
      -- a tool of that name stands in front
      obtain ⟨hdistinct, hfirst⟩ := ih _ h
      refine ⟨hdistinct, fun name => ?_⟩
      rw [hfirst, ← List.singleton_append, firstNamed?_append, firstNamed?_append,
        firstNamed?_append]
      cases hacc : firstNamed? name acc.reverse with
      | some y => rfl
      | none =>
        have new : firstNamed? name [x] = none := by
          refine List.find?_eq_none.mpr fun y hy same => ?_
          cases List.mem_singleton.mp hy
          obtain ⟨z, hz, hname⟩ := List.mem_map.mp (any_addTool.mp old)
          exact List.find?_eq_none.mp hacc z (List.mem_reverse.mpr hz) (by simpa [hname] using same)
        rw [new]
        rfl
    next new =>
      have hdistinct : DistinctNames (x :: acc).reverse := by
        unfold DistinctNames at h ⊢
        rw [List.reverse_cons, List.map_append, List.nodup_append']
        refine ⟨h, by simp, ?_⟩
        simp only [List.map_cons, List.map_nil, List.disjoint_singleton, List.map_reverse,
          List.mem_reverse]
        exact fun old => new (any_addTool.mpr old)
      obtain ⟨hdistinct, hfirst⟩ := ih _ hdistinct
      refine ⟨hdistinct, fun name => ?_⟩
      rw [hfirst, List.reverse_cons, List.append_assoc]
      rfl

theorem distinctNames_distinct (found : List (String × ToolDefinition)) :
    DistinctNames (distinct found) :=
  (foldl_addTool found [] List.nodup_nil).1

/-- **Of the tools with one name the first is kept.** -/
theorem firstNamed?_distinct (name : String) (found : List (String × ToolDefinition)) :
    firstNamed? name (distinct found) = firstNamed? name found :=
  (foldl_addTool found [] List.nodup_nil).2 name

/-! ### Owners -/

/-- In a round a server is the first that lists a tool of the name, and this tool is its first of
that name. -/
inductive Owns (name : String) : List (String × ToolsReply) → String → ToolDefinition → Prop
  | here {server : String} {reply : ToolsReply} {rest : List (String × ToolsReply)}
      {t : ToolDefinition} {earlier later : List ToolDefinition}
      (told : Told reply (earlier ++ t :: later)) (named : t.name = name)
      (first : ∀ u ∈ earlier, u.name ≠ name) : Owns name ((server, reply) :: rest) server t
  | further {server : String} {reply : ToolsReply} {rest : List (String × ToolsReply)}
      {owner : String} {t : ToolDefinition} {tools : List ToolDefinition} (told : Told reply tools)
      (unlisted : ∀ u ∈ tools, u.name ≠ name) (owns : Owns name rest owner t) :
      Owns name ((server, reply) :: rest) owner t

/-- What the servers of a round replied can have been read. -/
def RoundFits (round : List (String × ToolsReply)) : Prop := ∀ x ∈ round, ReplyFits x.2

theorem RoundFits.concat {round : List (String × ToolsReply)} (h : RoundFits round)
    {server : String} {reply : ToolsReply} (fit : ReplyFits reply) :
    RoundFits (round ++ [(server, reply)]) :=
  List.forall_mem_append.mpr ⟨h, by simpa using fit⟩

/-- The first server of a round that lists a tool of the name, and its first such tool. -/
def owner? (round : List (String × ToolsReply)) (name : String) :
    Option (String × ToolDefinition) :=
  round.findSome? fun (server, reply) => ((listedBy reply).find? (·.name == name)).map (server, ·)

theorem owner?_cons (asked : String) (reply : ToolsReply) (round : List (String × ToolsReply))
    (name : String) : owner? ((asked, reply) :: round) name =
      (((listedBy reply).find? (·.name == name)).map (asked, ·)).or (owner? round name) := by
  unfold owner?
  rw [List.findSome?_cons]
  dsimp only
  cases ((listedBy reply).find? (·.name == name)).map (asked, ·) <;> rfl

/-- The first tool of a name that was told. -/
theorem find?_listedBy_eq_some_iff {reply : ToolsReply} (fit : ReplyFits reply) {name : String}
    {t : ToolDefinition} : (listedBy reply).find? (·.name == name) = some t ↔
      ∃ earlier later, Told reply (earlier ++ t :: later) ∧ t.name = name ∧
        ∀ u ∈ earlier, u.name ≠ name := by
  rw [List.find?_eq_some_iff_append]
  constructor
  · rintro ⟨named, earlier, later, split, first⟩
    exact ⟨earlier, later, (told_iff fit).mpr split, by simpa using named,
      fun u hu => by simpa using first u hu⟩
  · rintro ⟨earlier, later, told, named, first⟩
    exact ⟨by simpa using named, earlier, later, (told_iff fit).mp told,
      fun u hu => by simpa using first u hu⟩

/-- No tool of a name was told. -/
theorem find?_listedBy_eq_none_iff {reply : ToolsReply} (fit : ReplyFits reply) {name : String} :
    (listedBy reply).find? (·.name == name) = none ↔
      ∃ tools, Told reply tools ∧ ∀ u ∈ tools, u.name ≠ name := by
  rw [List.find?_eq_none]
  constructor
  · intro unlisted
    exact ⟨_, (told_iff fit).mpr rfl, fun u hu => by simpa using unlisted u hu⟩
  · rintro ⟨tools, told, unlisted⟩
    rw [(told_iff fit).mp told]
    exact fun u hu => by simpa using unlisted u hu

/-- **The owner is found.** -/
theorem owns_iff {name : String} {round : List (String × ToolsReply)} (fits : RoundFits round)
    {server : String} {t : ToolDefinition} :
    Owns name round server t ↔ owner? round name = some (server, t) := by
  induction round with
  | nil =>
    constructor
    · rintro ⟨⟩
    · rintro ⟨⟩
  | cons x round ih =>
    obtain ⟨asked, reply⟩ := x
    obtain ⟨fit, fits⟩ := List.forall_mem_cons.mp fits
    rw [owner?_cons]
    constructor
    · rintro (⟨told, named, first⟩ | ⟨told, unlisted, owns⟩)
      · rw [(find?_listedBy_eq_some_iff fit).mpr ⟨_, _, told, named, first⟩]
        rfl
      · rw [(find?_listedBy_eq_none_iff fit).mpr ⟨_, told, unlisted⟩]
        exact (ih fits).mp owns
    · intro found
      cases hfind : (listedBy reply).find? (·.name == name) with
      | none =>
        rw [hfind] at found
        obtain ⟨tools, told, unlisted⟩ := (find?_listedBy_eq_none_iff fit).mp hfind
        exact .further told unlisted ((ih fits).mpr found)
      | some u =>
        rw [hfind] at found
        cases found
        obtain ⟨earlier, later, told, named, first⟩ := (find?_listedBy_eq_some_iff fit).mp hfind
        exact .here told named first

theorem firstNamed?_foundIn (name : String) (round : List (String × ToolsReply)) :
    firstNamed? name (foundIn round) = owner? round name := by
  unfold firstNamed? foundIn owner?
  rw [List.find?_flatMap]
  congr 1
  funext x
  rw [List.find?_map]
  rfl

/-- The table of some tools with their servers. -/
def tableOf (kept : List (String × ToolDefinition)) : RouteTable :=
  kept.map fun (server, t) => (t.name, server)

theorem lookup_tableOf (name : String) (kept : List (String × ToolDefinition)) :
    (tableOf kept).lookup name = (firstNamed? name kept).map Prod.fst := by
  induction kept with
  | nil => rfl
  | cons x kept ih =>
    unfold tableOf firstNamed? at *
    rw [List.map_cons, List.lookup_cons, List.find?_cons, ih]
    by_cases same : x.2.name = name
    · simp [same]
    · have other : (name == x.2.name) = false := by simpa using Ne.symm same
      have other' : (x.2.name == name) = false := by simpa using same
      simp only [other, other']

/-- The table that a round leads to. -/
def tableAfter (round : List (String × ToolsReply)) : RouteTable :=
  tableOf (Client.distinct (foundIn round))

/-- The tools that a round leads to. -/
def toolsAfter (round : List (String × ToolsReply)) : List ToolDefinition :=
  (Client.distinct (foundIn round)).map Prod.snd

/-- What a round of all servers leads to: each name once, at its owner, with the owner's
definition. -/
structure Agrees (names : List String) (round : List (String × ToolsReply))
    (tools : List ToolDefinition) (table : RouteTable) : Prop where
  /-- All servers were asked, in order. -/
  asked : round.map Prod.fst = names
  distinct : (tools.map (·.name)).Nodup
  keys : table.map Prod.fst = tools.map (·.name)
  owners : ∀ name server, table.lookup name = some server ↔ ∃ t, Owns name round server t
  definitions : ∀ t, t ∈ tools ↔ ∃ server, Owns t.name round server t

theorem lookup_tableAfter (name : String) (round : List (String × ToolsReply)) :
    (tableAfter round).lookup name = (owner? round name).map Prod.fst := by
  unfold tableAfter
  rw [lookup_tableOf, firstNamed?_distinct, firstNamed?_foundIn]

theorem mem_toolsAfter {t : ToolDefinition} {round : List (String × ToolsReply)} :
    t ∈ toolsAfter round ↔ (owner? round t.name).map Prod.snd = some t := by
  unfold toolsAfter
  rw [← firstNamed?_foundIn, ← firstNamed?_distinct]
  constructor
  · intro ht
    obtain ⟨x, hx, rfl⟩ := List.mem_map.mp ht
    rw [(firstNamed?_eq_some_iff (distinctNames_distinct _)).mpr ⟨hx, rfl⟩]
    rfl
  · intro ht
    obtain ⟨x, hx, rfl⟩ := Option.map_eq_some_iff.mp ht
    exact List.mem_map.mpr ⟨x, List.mem_of_find?_eq_some hx, rfl⟩

/-- **The tools that a listing returns and the table that it sets agree.** -/
theorem agrees_settled {names : List String} {round : List (String × ToolsReply)}
    (fits : RoundFits round) (asked : round.map Prod.fst = names) :
    Agrees names round (toolsAfter round) (tableAfter round) where
  asked := asked
  distinct := by
    unfold toolsAfter
    rw [List.map_map]
    exact distinctNames_distinct _
  keys := by
    unfold tableAfter toolsAfter tableOf
    rw [List.map_map, List.map_map]
    rfl
  owners name server := by
    rw [lookup_tableAfter, Option.map_eq_some_iff]
    constructor
    · rintro ⟨⟨server, t⟩, found, rfl⟩
      exact ⟨t, (owns_iff fits).mpr found⟩
    · rintro ⟨t, owns⟩
      exact ⟨_, (owns_iff fits).mp owns, rfl⟩
  definitions t := by
    rw [mem_toolsAfter, Option.map_eq_some_iff]
    constructor
    · rintro ⟨⟨server, t⟩, found, rfl⟩
      exact ⟨server, (owns_iff fits).mpr found⟩
    · rintro ⟨server, owns⟩
      exact ⟨_, (owns_iff fits).mp owns, rfl⟩

end ChatRelay.Bridge
