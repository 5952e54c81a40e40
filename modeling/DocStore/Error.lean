/-!
# Errors

What can go wrong in a call, and the message for it. Every error is a fault of
the call itself: a malformed filter or update, or a write that would give two
documents one identifier.
-/

namespace DocStore

inductive Error where
  /-- The identifier is taken in the collection of that name. -/
  | duplicateKey (id collection : String)
  /-- The keys of an update that are not update operators. -/
  | unsupportedUpdateOperators (keys : List String)
  /-- Fields that both `$set` and `$setOnInsert` would write on insertion. -/
  | conflictingUpsertFields (fields : List String)
  /-- A logical key without a list of filters. -/
  | malformedLogicalFilter (key : String)
  | invalidPattern (pattern reason : String)
  | unsupportedOperator (key : String)
  | invalidOperand (operator reason : String)
  | invalidUpdate (reason : String)
  | collectionAlreadyExists (fullName : String)
  | unsupportedFilter (reason : String)
  | serialization (reason : String)
  | backend (reason : String)
  deriving DecidableEq, Repr

def Error.message : Error → String
  | duplicateKey id collection =>
      "Duplicate key: document " ++ id ++ " already exists in collection " ++ collection
  | unsupportedUpdateOperators keys =>
      "Unsupported update operators found: " ++ ", ".intercalate keys
  | conflictingUpsertFields fields =>
      "Conflicting upsert fields in $set and $setOnInsert: " ++ ", ".intercalate fields
  | malformedLogicalFilter key => key ++ " expression must be a nonempty array"
  | invalidPattern pattern reason => "Invalid pattern '" ++ pattern ++ "': " ++ reason
  | unsupportedOperator key => "Constraint operator '" ++ key ++ "' is not supported"
  | invalidOperand operator reason => "Invalid operand for " ++ operator ++ ": " ++ reason
  | invalidUpdate reason => "Invalid update: " ++ reason
  | collectionAlreadyExists fullName => "Collection already exists: " ++ fullName
  | unsupportedFilter reason => "Unsupported filter: " ++ reason
  | serialization reason => "Serialization error: " ++ reason
  | backend reason => "Backend error: " ++ reason

end DocStore
