/-!
# SwiftDecl.DatabaseError

Errors of a SQLite connection: a code, and the connection's message if it has one.
-/

namespace SwiftDecl

structure DatabaseError where
  code : Int32
  /-- What the connection said. An absent message differs from every text. -/
  rawMessage : Option String
  deriving DecidableEq

/-- A connection as far as its last error goes. -/
structure Connection where
  lastErrorCode : Int32
  lastErrorMessage : Option String

namespace DatabaseError

def ofConnection (c : Connection) : DatabaseError := ⟨c.lastErrorCode, c.lastErrorMessage⟩

def message (e : DatabaseError) : String := e.rawMessage.getD "no message"

def display (e : DatabaseError) : String :=
  "SQLite error " ++ toString e.code.toInt ++ ": " ++ e.message

end DatabaseError
end SwiftDecl
