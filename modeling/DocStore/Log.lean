import DocStore.Filter
import DocStore.Index
import DocStore.Options

/-!
# Logs

The queries that were made and the indexes that were created, and whether an
entry is the one that is asked for (`satisfies`).
-/

namespace DocStore

/-! ## Queries -/

structure QueryRecord where
  filter : Filter
  options : Option FindOptions

mutual

/-- A wanted condition fits a logged one. A matcher is applied to a logged
value, values may be loosely equal, and groups go filter by filter. -/
def Condition.fits : Condition → Condition → Bool
  | .matcher m, .value v => m.accepts (some v)
  | .value a, .value b => a.same b || a.looseEq b
  | .filters fs, .filters gs => fs.length == gs.length && filtersFit fs gs
  | a, b => a.same b

def filtersFit : List (List (String × Condition)) → List (List (String × Condition)) → Bool
  | f :: fs, g :: gs => f.length == g.length && conditionsFit f g && filtersFit fs gs
  | _, _ => true

/-- Every wanted condition fits the logged one of that name. -/
def conditionsFit : List (String × Condition) → List (String × Condition) → Bool
  | [], _ => true
  | (key, wanted) :: rest, logged =>
      (match logged.lookup key with
        | some c => wanted.fits c
        | none => false) && conditionsFit rest logged

end

/-- The same names in any order, with conditions that fit. -/
def Filter.fits (wanted logged : Filter) : Bool :=
  wanted.length == logged.length && conditionsFit wanted logged

/-- No options are the default options. -/
def QueryRecord.satisfies (q : QueryRecord) (filter : Filter) (options : Option FindOptions) :
    Bool :=
  (q.options.getD .default).same (options.getD .default) && filter.fits q.filter

/-! ## Indexes -/

structure IndexRecord where
  name : String
  keys : IndexKeys
  options : IndexOptions

def IndexRecord.satisfies (r : IndexRecord) (keys : IndexKeys) (options : IndexOptions) : Bool :=
  r.keys.toDocument.same keys.toDocument && r.options == options

end DocStore
