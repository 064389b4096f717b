import SwiftDecl.Number.Binary64

/-!
# SwiftDecl.Data

Structured data as a text in some notation holds it. A text need not be well formed to its end:
the tree then says where it breaks off, so that a reader that goes through the tree in the order
of the text meets the break exactly when it gets there.
-/

namespace SwiftDecl

/-- Why a scalar has no value, although the text goes on after it. -/
inductive Unusable where
  | integerOverflow
  | doubleOverflow
  | loneSurrogate
  deriving DecidableEq

inductive Data where
  | null
  | bool (value : Bool)
  | integer (value : Int)
  | double (value : Binary64)
  | string (value : String)
  | dateTime
  /-- If it is not closed, the text is malformed right after the last item. -/
  | array (items : List Data) (closed : Bool)
  /-- If it is not closed, the text is malformed right after the last member. -/
  | table (members : List (String × Data)) (closed : Bool)
  /-- A container that is nested too deeply to be read; it can be passed over. -/
  | tooDeep (inner : Data)
  | unusable (why : Unusable)
  /-- What stands under a key that has no value; it can be passed over together with its key. -/
  | misnamed (value : Data)
  /-- No value stands here. -/
  | malformed
  deriving Inhabited

end SwiftDecl
