/-
`search_v4_memory`: searches share one retained connection and keep up to four scope documents
between them, each with a TEMP full-text index on that connection. A scope is reused while the
connection sees the same data version. Other connections commit at any time; a search reads the
snapshot that its first read pins.
-/
import Mesa.Retrieval.Search

namespace Mesa.Retrieval

open Mesa.Foundation Mesa.Foundation.Prog

/-! ## The connection and the cache -/

/-- The database file, the retained connection and the cache fields of the DAO. A uuid4 table name
is the next number of a supply. -/
structure System (E : SearchEnv) where
  snapshot : Snapshot
  /-- The number of commits so far; `PRAGMA data_version` changes exactly with it. -/
  commits : Nat
  /-- The snapshot of the open read transaction, with its data version. -/
  pinned : Option (Snapshot × Nat)
  temp : List (Nat × List FtsRow)
  /-- The identity of the connection object. -/
  connection : Nat
  /-- `_search_cache_db`. -/
  cacheDb : Option Nat
  /-- `_search_data_version`. -/
  dataVersion : Option Nat
  /-- `_search_scope_cache`, oldest use first. -/
  entries : List (ScopeKey × Scope E)
  nextTable : Nat
  /-- Statements of the running search so far. -/
  statements : Nat

/-- The surroundings of one search: the clock and the interrupts, and the commits of other
connections just before each statement. -/
structure CallContext (E : SearchEnv) extends Context E where
  commits : Nat → List Snapshot

abbrev CacheM (E : SearchEnv) := Prog (CallContext E) (System E) SearchError

section Cache

variable {E : SearchEnv}

namespace System

/-- A new DAO over a database. -/
def initial (E : SearchEnv) (db : Snapshot) : System E where
  snapshot := db
  commits := 0
  pinned := none
  temp := []
  connection := 0
  cacheDb := none
  dataVersion := none
  entries := []
  nextTable := 0
  statements := 0

/-- A commit by another connection. -/
def commit (s : System E) (db : Snapshot) : System E := { s with snapshot := db, commits := s.commits + 1 }

/-- Commits in their order. -/
def land (s : System E) (l : List Snapshot) : System E := l.foldl commit s

/-- What a read on the retained connection sees. -/
def view (s : System E) : Snapshot × Nat := s.pinned.getD (s.snapshot, s.commits)

/-- `DROP TABLE IF EXISTS temp.…` of several tables. -/
def dropTables (s : System E) (tables : List Nat) : System E :=
  { s with temp := s.temp.filter fun t => decide (t.1 ∉ tables) }

/-- The tables of the cached scopes. -/
def tables (s : System E) : List Nat := s.entries.map (·.2.ftsTable)

/-- `_clear_search_scope_cache`. -/
def clearScopes (s : System E) : System E := { s.dropTables s.tables with entries := [] }

/-- `close_search_connection`; the next search opens another connection. -/
def reconnect (s : System E) : System E := { s with connection := s.connection + 1, temp := [] }

end System

/-- The next statement, with the commits just before it. -/
def System.statement (s : System E) (l : List Snapshot) : System E :=
  { s.land l with statements := s.statements + 1 }

/-- One statement, or an exception in its place. -/
def cacheStatement : CacheM E Unit := fun c s =>
  match c.interrupt s.statements with
  | some what => (.error (.interrupted what), s.statement (c.commits s.statements))
  | none => (.ok (), s.statement (c.commits s.statements))

/-- The first read of a transaction pins its snapshot. -/
def pinSnapshot : CacheM E Unit := do
  cacheStatement
  modify fun s => { s with pinned := some s.view }

/-- The whole cache is dropped when the data version has changed. -/
def System.refresh (s : System E) : System E :=
  if s.dataVersion = some s.view.2 then s else { s.clearScopes with dataVersion := some s.view.2 }

/-- `PRAGMA data_version`, and what follows from it. -/
def refreshVersion : CacheM E Unit := do
  cacheStatement
  modify System.refresh

/-- A fifth scope evicts the oldest. -/
def System.makeRoom (s : System E) : System E :=
  if s.entries.length = 4 then { s.dropTables (s.tables.take 1) with entries := s.entries.drop 1 } else s

/-- The entry of the key at the end of the cache, a fresh one if there is none. -/
def System.placeScope (s : System E) (k : ScopeKey) : System E :=
  match s.entries.find? fun p => decide (p.1 = k) with
  | some p => { s with entries := (s.entries.filter fun q => decide (q.1 ≠ k)) ++ [p] }
  | none => { s.makeRoom with
      entries := s.makeRoom.entries ++ [(k, Scope.fresh E s.nextTable)]
      nextTable := s.nextTable + 1 }

/-- `scope`, the entry at the end. -/
def enterScope (k : ScopeKey) : CacheM E (Scope E) := fun _ s =>
  match (s.placeScope k).entries.getLast? with
  | some p => (.ok p.2, s.placeScope k)
  | none => (.error (.keyError "scope"), s.placeScope k)

/-- The search over the entry of its key, on the pinned snapshot. The scope document is shared, so
what the search adds to it stays also when it raises. -/
def runScoped (rt : Runtime E) (r : SearchRequest) (scope : Scope E) : CacheM E (List (SearchResult E.Float)) :=
  fun c s =>
    let out := searchV4MemoryUncached rt s.view.1 r c.toContext ⟨scope, s.temp, s.statements, none⟩
    let landed := s.land ((List.range out.2.statements).flatMap fun n =>
      if s.statements ≤ n then c.commits n else [])
    (out.1, { landed with
      temp := out.2.temp
      statements := out.2.statements
      entries := s.entries.map fun p => if p.1 = r.scopeKey then (p.1, out.2.scope) else p })

/-- The body of the `try` statement. -/
def cachedSearch (rt : Runtime E) (r : SearchRequest) : CacheM E (List (SearchResult E.Float)) := do
  cacheStatement
  pinSnapshot
  refreshVersion
  let scope ← enterScope r.scopeKey
  let result ← runScoped rt r scope
  cacheStatement
  pure result

/-- `if self._search_cache_db is not db`: another connection has none of the tables. -/
def System.adopt (s : System E) : System E :=
  if s.cacheDb = some s.connection then s
  else { s with entries := [], dataVersion := none, cacheDb := some s.connection }

/-- The state in which the `try` statement begins. -/
def System.enter (s : System E) : System E := { s.adopt with pinned := none, statements := 0 }

/-- `except BaseException`: the rollback brings the TEMP tables of `s` back, then they and the
cached ones are dropped. -/
def System.abandon (s t : System E) : System E :=
  { ({ t with temp := s.temp }.dropTables s.tables).clearScopes with dataVersion := none }

end Cache

/-! ## The reranker -/

section Rerank

variable {E : SearchEnv}

/-- `_rerank_results`. -/
def rerankResults (k : Reranker E.Float) (query : String) (results : List (SearchResult E.Float)) (limit : Nat) :
    Except SearchError (List (SearchResult E.Float)) :=
  if results.isEmpty then .ok []
  else
    match k.score query (results.map fun x => x.rerankText.getD "") with
    | .error e => .error e
    | .ok scores =>
      if scores.length ≠ results.length ∨ scores.any fun s => !k.isFinite s then
        .error (.runtimeError "reranker returned invalid scores")
      else
        let rows := (results.zip scores).map fun p => { p.1 with rerankText := none, rerankScore := some p.2 }
        let ordered := rows.insertionSort fun x y =>
          E.le (y.rerankScore.getD E.zero) (x.rerankScore.getD E.zero) = true
        let exact := ((ordered.filter fun x => x.retrieval.exactMatch.isSome).insertionSort fun x y =>
          (x.retrieval.exactMatch.map Prod.snd).getD 0 ≤ (y.retrieval.exactMatch.map Prod.snd).getD 0).take 3
        .ok ((exact ++ ordered.filter fun x =>
          !exact.any fun y => decide (y.candidateId = x.candidateId)).take limit)

/-- The request that the search runs with: a reranker looks deeper than the limit. -/
def deepened (rt : Runtime E) (r : SearchRequest) : SearchRequest :=
  match rt.reranker with
  | some k => { r with limit := max r.limit k.depth }
  | none => r

/-- What follows the search, whether cached or not. -/
def finish (rt : Runtime E) (r : SearchRequest) (results : List (SearchResult E.Float)) :
    Except SearchError (List (SearchResult E.Float)) :=
  match rt.reranker with
  | some k => rerankResults k r.query results r.limit
  | none => .ok results

end Rerank

/-! ## The search -/

section Search

variable {E : SearchEnv} (rt : Runtime E) (r : SearchRequest) (c : CallContext E)

/-- `search_v4_memory` with the scope cache enabled. -/
def searchV4Memory (s : System E) : Except SearchError (List (SearchResult E.Float)) × System E :=
  if r.valid E then
    match cachedSearch rt (deepened rt r) c s.enter with
    | (.ok results, t) => (finish rt r results, { t with pinned := none })
    | (.error e, t) => (.error e, { s.enter.abandon t with pinned := none })
  else (.error (.valueError "invalid v4 search scope"), s)

end Search

/-! ## Runs -/

/-- What happens to a DAO and its database: a commit of another connection, the retained
connection closed, or a search. -/
inductive CacheEvent (E : SearchEnv)
  | commit (db : Snapshot)
  | reconnect
  | search (rt : Runtime E) (r : SearchRequest) (c : CallContext E)

def CacheEvent.exec {E : SearchEnv} (s : System E) : CacheEvent E → System E
  | .commit db => s.commit db
  | .reconnect => s.reconnect
  | .search rt r c => (searchV4Memory rt r c s).2

end Mesa.Retrieval
