import Evergreen.Word

/-!
# Documents

Settings and policies are read from documents: trees of the values every data format has.
A value with named parts may be given by name, where parts nobody asks for are ignored, or by
position, where there must not be more parts than names (`Document.parts?`).
-/

namespace Evergreen

/-- A tree of data. Numbers other than naturals are not told apart: nothing reads them. -/
inductive Document where
  | null
  | bool (b : Bool)
  | natural (n : Nat)
  | number
  | text (s : String)
  | items (xs : List Document)
  | fields (xs : List (String × Document))
  deriving Inhabited

namespace Document

/-- The value of a named part. -/
def field? (xs : List (String × Document)) (name : String) : Option Document :=
  (xs.find? fun (n, _) => n == name).map (·.2)

/-- The parts of a value, in the order of `names`; `none` at each part that is not given. -/
def parts? (names : List String) : Document → Option (List (Option Document))
  | fields xs => some (names.map (field? xs))
  | items xs =>
    if xs.length ≤ names.length then
      some (xs.map some ++ List.replicate (names.length - xs.length) none)
    else none
  | _ => none

/-- A text. -/
def text? : Document → Option String
  | text s => some s
  | _ => none

/-- The word that stands for one of several choices: a text, or the name of the only part of
a value, where nothing is in the part. -/
def choice? : Document → Option String
  | text s => some s
  | fields [(name, null)] => some name
  | _ => none

/-- A natural number that fits a word. -/
def count? : Document → Option Nat
  | natural n => word? n
  | _ => none

/-- A part that may be left out: `missing` where it is not given, else what `read` makes of
it. -/
def orElse {α : Type} (missing : α) (read : Document → Option α) :
    Option Document → Option α
  | none => some missing
  | some d => read d

/-- The parts of a record are its fields, in the order in which they are asked for. -/
theorem parts?_fields (names : List String) (xs : List (String × Document)) :
    parts? names (fields xs) = some (names.map (field? xs)) := rfl

/-- There are always as many parts as names. -/
theorem length_of_parts? {names : List String} {d : Document} {ps : List (Option Document)}
    (h : parts? names d = some ps) : ps.length = names.length := by
  cases d <;> simp only [parts?, reduceCtorEq, Option.some.injEq] at h
  case items xs =>
    split at h
    · cases h
      simp
      omega
    · cases h
  case fields xs =>
    subst h
    simp

end Document

end Evergreen
