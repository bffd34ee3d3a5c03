/-!
# Table hints

The hints that a statement may give to the server for a table, and sets of them. A set is written in
the order in which the hints are declared here. Hints that contradict each other are not refused.
-/

namespace SqlWright

/-- A hint for a table. -/
inductive Hint where
  | noLock
  | readUncommitted
  | readCommitted
  | repeatableRead
  | serializable
  | snapshot
  | holdLock
  | updLock
  | xLock
  | rowLock
  | pagLock
  | tabLock
  | tabLockX
  | noWait
  | readPast
  | forceSeek
  | forceScan
  | noExpand
deriving DecidableEq, Repr, Inhabited

namespace Hint

/-- All hints, in the order of their declaration. -/
def all : List Hint :=
  [.noLock, .readUncommitted, .readCommitted, .repeatableRead, .serializable, .snapshot, .holdLock,
    .updLock, .xLock, .rowLock, .pagLock, .tabLock, .tabLockX, .noWait, .readPast, .forceSeek,
    .forceScan, .noExpand]

/-- The name of a hint in a settings file. -/
def name : Hint → String
  | .noLock => "NoLock"
  | .readUncommitted => "ReadUncommitted"
  | .readCommitted => "ReadCommitted"
  | .repeatableRead => "RepeatableRead"
  | .serializable => "Serializable"
  | .snapshot => "Snapshot"
  | .holdLock => "HoldLock"
  | .updLock => "UpdLock"
  | .xLock => "XLock"
  | .rowLock => "RowLock"
  | .pagLock => "PagLock"
  | .tabLock => "TabLock"
  | .tabLockX => "TabLockX"
  | .noWait => "NoWait"
  | .readPast => "ReadPast"
  | .forceSeek => "ForceSeek"
  | .forceScan => "ForceScan"
  | .noExpand => "NoExpand"

/-- The hint with a given name. -/
def ofName? (s : String) : Option Hint :=
  all.find? fun h => h.name == s

/-- The keyword of a hint in a statement. -/
def keyword : Hint → String
  | .noLock => "NOLOCK"
  | .readUncommitted => "READUNCOMMITTED"
  | .readCommitted => "READCOMMITTED"
  | .repeatableRead => "REPEATABLEREAD"
  | .serializable => "SERIALIZABLE"
  | .snapshot => "SNAPSHOT"
  | .holdLock => "HOLDLOCK"
  | .updLock => "UPDLOCK"
  | .xLock => "XLOCK"
  | .rowLock => "ROWLOCK"
  | .pagLock => "PAGLOCK"
  | .tabLock => "TABLOCK"
  | .tabLockX => "TABLOCKX"
  | .noWait => "NOWAIT"
  | .readPast => "READPAST"
  | .forceSeek => "FORCESEEK"
  | .forceScan => "FORCESCAN"
  | .noExpand => "NOEXPAND"

end Hint

/-- A set of hints, held in the order of their declaration. -/
structure Hints where
  members : List Hint
deriving DecidableEq, Repr, Inhabited

namespace Hints

/-- No hints. -/
def empty : Hints := ⟨[]⟩

/-- Adds a hint. -/
def insert (hs : Hints) (h : Hint) : Hints :=
  ⟨Hint.all.filter fun g => g == h || hs.members.contains g⟩

/-- Adds several hints. -/
def insertAll (hs : Hints) (more : List Hint) : Hints :=
  more.foldl insert hs

/-- The set of some hints. -/
def ofList (hs : List Hint) : Hints :=
  empty.insertAll hs

/-- Whether there are no hints. -/
def isEmpty (hs : Hints) : Bool :=
  hs.members.isEmpty

/-- The clause of a set of hints; the empty set has none. -/
def clause? (hs : Hints) : Option String :=
  if hs.isEmpty then none
  else some ("WITH (" ++ String.intercalate "," (hs.members.map Hint.keyword) ++ ")")

/-- The clause after a blank, or nothing. -/
def suffixed (hs : Hints) : String :=
  match hs.clause? with
  | some clause => " " ++ clause
  | none => ""

end Hints

end SqlWright
