/-
The crate's error type (core/src/error.rs) and the foreign errors it
wraps, as far as the crate itself builds or forwards them.
-/

namespace PaimonFtindex.Model

/-- `std::io::ErrorKind`, the kinds the crate names. -/
inductive ErrorKind where
  | invalidInput
  | unexpectedEof
  | permissionDenied
  | other
  deriving DecidableEq, Repr

/-- `std::io::Error`. -/
structure IoError where
  kind : ErrorKind
  message : String
  deriving DecidableEq, Repr

/-- `serde_json::Error`. -/
structure JsonError where
  message : String
  deriving DecidableEq, Repr

/-- `tantivy::TantivyError`. -/
structure TantivyError where
  message : String
  deriving DecidableEq, Repr

/-- `FtIndexError`. -/
inductive FtIndexError where
  | invalidOption (key message : String)
  | invalidQuery (message : String)
  | invalidStorage (message : String)
  | io (error : IoError)
  | json (error : JsonError)
  | tantivy (error : TantivyError)
  deriving DecidableEq, Repr

/-- `crate::Result`. -/
abbrev Result (α : Type) := Except FtIndexError α

/-- `?` on a foreign result: the `#[from]` conversions. -/
def liftError {ε α : Type} (wrap : ε → FtIndexError) : Except ε α → Result α
  | .ok a => .ok a
  | .error e => .error (wrap e)

@[simp] theorem liftError_eq_ok {ε α : Type} {wrap : ε → FtIndexError}
    {r : Except ε α} {a : α} : liftError wrap r = .ok a ↔ r = .ok a := by
  cases r <;> simp [liftError]

/-- Both runs fail, or both succeed with the same value: which of several
errors a failing run reports does not matter. -/
def SameOutcome {α : Type} (r r' : Result α) : Prop :=
  ∀ a, r = .ok a ↔ r' = .ok a

end PaimonFtindex.Model
