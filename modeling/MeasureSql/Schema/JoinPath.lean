import MeasureSql.Schema.Basic

/-!
# Join paths

The active relationships of a schema form an undirected graph on table names in capitals.  The
shortest chain between two tables is found by breadth-first search; the relationships of a node are
tried newest first, those that leave it before those that arrive.  The search notes how it first
reached each node, and the chain is read back from the goal.

## Main definitions

* `PathError` — why there is no path.
* `Schema.joinPath` — the shortest chain of relationships between two tables.
* `Schema.joinClauses` — the `JOIN` clauses that reach a list of tables from the first one.
-/

namespace MeasureSql

/-- Why two tables cannot be joined. -/
inductive PathError where
  | unknownTable (name : String)
  | noPath (source target : String)
  deriving DecidableEq, Repr

/-- The wording of an error. -/
def PathError.message : PathError → String
  | .unknownTable name => "Unknown table: " ++ name
  | .noPath source target => "No relationship path from '" ++ source ++ "' to '" ++ target ++ "'"

namespace Schema

/-- The active relationships. -/
def activeRelationships (s : Schema) : List Relationship :=
  s.relationships.filter (·.isActive)

/-- Is the key an end of an active relationship? -/
def isNode (s : Schema) (key : String) : Bool :=
  s.activeRelationships.any fun r => r.fromKey == key || r.toKey == key

/-- The node of a table: the first of its names that is an end of an active relationship. -/
def node? (s : Schema) (table : String) : Option String :=
  ((s.namesOf table).map Text.upper).find? s.isNode

/-- The steps from a node: each relationship with the node at its other end, newest first, and
those that leave the node before those that arrive there. -/
def steps (s : Schema) (node : String) : List (String × Relationship) :=
  let leaving := s.activeRelationships.filter (·.fromKey == node)
  let arriving := s.activeRelationships.filter fun r => r.toKey == node && r.fromKey != node
  leaving.reverse.map (fun r => (r.toKey, r)) ++ arriving.reverse.map (fun r => (r.fromKey, r))

/-- How a node was first reached: from which node, and along which relationship. -/
structure Arrival where
  node : String
  parent : String
  via : Relationship
  deriving DecidableEq, Repr

/-- What is known while nodes are searched: the nodes seen, how each was reached, newest first, and
the nodes whose steps are still to be tried. -/
structure Frontier where
  seen : List String
  arrivals : List Arrival
  queue : List String
  deriving Repr

/-- Only the source has been seen. -/
def Frontier.start (source : String) : Frontier :=
  ⟨[source], [], [source]⟩

/-- Tries the steps from a node.  The arrival at the goal ends the search. -/
def tryStep (goal current : String) :
    List (String × Relationship) → Frontier → Except (List Arrival) Frontier
  | [], f => .ok f
  | (node, r) :: rest, f =>
    if f.seen.contains node then tryStep goal current rest f
    else
      let arrivals := ⟨node, current, r⟩ :: f.arrivals
      if node == goal then .error arrivals
      else tryStep goal current rest ⟨node :: f.seen, arrivals, f.queue ++ [node]⟩

/-- How a search ends: at the goal, with the arrivals up to there; with no node left to try; or
without an end in the rounds allowed. -/
inductive Outcome where
  | reached (arrivals : List Arrival)
  | exhausted
  | unfinished
  deriving Repr

/-- Breadth-first search in a number of rounds, one for each node that is tried. -/
def search (s : Schema) (goal : String) : Nat → Frontier → Outcome
  | 0, _ => .unfinished
  | rounds + 1, f => match f.queue with
    | [] => .exhausted
    | node :: queue => match tryStep goal node (s.steps node) { f with queue := queue } with
      | .error arrivals => .reached arrivals
      | .ok next => search s goal rounds next

/-- Walks from a node back to the source, in a number of steps, with the chain from there on.  A
node without an arrival ends the walk as well. -/
def walkBack (source : String) (arrivals : List Arrival) :
    Nat → String → List Relationship → Option (List Relationship)
  | 0, _, _ => none
  | steps + 1, node, chain =>
    if node == source then some chain
    else match arrivals.find? (·.node == node) with
      | none => some chain
      | some a => walkBack source arrivals steps a.parent (a.via :: chain)

/-- A bound on the rounds of a search: no node is queued twice. -/
def rounds (s : Schema) : Nat :=
  2 * s.relationships.length + 2

/-- The shortest chain of active relationships between two nodes. -/
def shortestChain? (s : Schema) (source target : String) : Option (List Relationship) :=
  match s.search target s.rounds (.start source) with
  | .reached arrivals => walkBack source arrivals (arrivals.length + 1) target []
  | _ => none

/-- Why a table without a node has no path. -/
def missingNode (s : Schema) (table source target : String) : PathError :=
  if (s.table? table).isSome then .noPath source target else .unknownTable table

/-- The shortest chain of active relationships between two tables; none is needed when both names
mean the same table. -/
def joinPath (s : Schema) (source target : String) : Except PathError (List Relationship) :=
  if s.tableKey source == s.tableKey target then .ok []
  else match s.node? source with
    | none => .error (s.missingNode source source target)
    | some a => match s.node? target with
      | none => .error (s.missingNode target source target)
      | some b => match s.shortestChain? a b with
        | some chain => .ok chain
        | none => .error (.noPath source target)

/-- Can two tables be joined? -/
def hasPath (s : Schema) (source target : String) : Bool :=
  (s.joinPath source target).isOk

/-- The first of the shortest lists. -/
def firstShortest? {α : Type} : List (List α) → Option (List α)
  | [] => none
  | x :: xs => match firstShortest? xs with
    | some y => if y.length < x.length then some y else some x
    | none => some x

/-- Tables that have been joined: their keys, the names by which they were reached, and the clauses
so far. -/
structure Joined where
  keys : List String
  names : List String
  clauses : List String
  deriving Repr

/-- Joins the table at the far end of a relationship, unless it has been joined. -/
def joinAlong (s : Schema) (j : Joined) (r : Relationship) : Joined :=
  let table := if j.keys.contains (s.tableKey r.fromTable) then r.toTable else r.fromTable
  let key := s.tableKey table
  if j.keys.contains key then j
  else
    let physical := ((s.table? table).map (·.fullName)).getD table
    ⟨j.keys ++ [key], j.names ++ [table],
      j.clauses ++ ["JOIN " ++ physical ++ " ON " ++ r.joinCondition]⟩

/-- Joins more tables, each through the shortest path from a table that has been joined. -/
def joinTables (s : Schema) (base : String) : List String → Joined → Except PathError Joined
  | [], j => .ok j
  | table :: rest, j =>
    if j.keys.contains (s.tableKey table) then s.joinTables base rest j
    else match firstShortest? (j.names.filterMap fun name => (s.joinPath name table).toOption) with
      | none => .error (.noPath base table)
      | some path => s.joinTables base rest (path.foldl s.joinAlong j)

/-- The `JOIN` clauses that reach every table of a list from the first one. -/
def joinClauses (s : Schema) : List String → Except PathError (List String)
  | [] => .ok []
  | base :: rest => (s.joinTables base rest ⟨[s.tableKey base], [base], []⟩).map (·.clauses)

/-- The `JOIN` clauses one a line. -/
def joinText (s : Schema) (tables : List String) : Except PathError String :=
  (s.joinClauses tables).map ("\n".intercalate ·)

end Schema

end MeasureSql
