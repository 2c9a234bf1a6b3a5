/-
Module: GoExotic.Model.Go
Purpose: What the model uses of Go itself: 64-bit `int` arithmetic on integers, the error values that
  `fmt.Errorf` builds, early returns, contexts, string trimming, and maps. A Go string is a text of
  characters throughout, so every string is valid UTF-8.
Trusted boundary: Go's language and standard library, as documented
Main exports: maxInt, wrapInt, GoError, failIf, Ctx, trimSpace, trimRightSlash, GoMap
-/
import GoExotic.Model.Float64
import Mathlib.Data.List.AList
import Mathlib.Data.List.DropRight
import Mathlib.Tactic.NormNum

namespace GoExotic

/-! ### Integers -/

/-- `math.MaxInt` on a 64-bit platform. -/
abbrev maxInt : Int := 9223372036854775807

/-- `math.MinInt` on a 64-bit platform. -/
abbrev minInt : Int := -9223372036854775808

theorem maxInt_lit : maxInt = 9223372036854775807 := rfl

theorem minInt_lit : minInt = -9223372036854775808 := rfl

/-- The result of an `int` operation: the exact integer reduced to 64 bits. -/
def wrapInt (exact : Int) : Int := Int.bmod exact (2 ^ 64)

/-- An `int` operation whose exact result fits does not wrap. -/
theorem wrapInt_eq {exact : Int} (above : minInt ≤ exact) (below : exact ≤ maxInt) :
    wrapInt exact = exact := by
  rw [wrapInt, Int.bmod_eq_of_le] <;> norm_num at above below ⊢ <;> omega

theorem wrapInt_le (exact : Int) : wrapInt exact ≤ maxInt := by
  have bound : wrapInt exact < ((2 ^ 64 : Nat) + 1 : Int) / 2 := Int.bmod_lt (by norm_num)
  norm_num at bound
  exact Int.lt_add_one_iff.mp bound

/-! ### Errors -/

/-- An argument of `fmt.Errorf`. -/
inductive FmtArg where
  | int (value : Int)
  | str (value : String)
  | float (value : Float64)
deriving DecidableEq, Repr

/-- An error value: a format with its arguments, possibly wrapping a cause with `%w`; the error of a
context; or an error of a library the model does not look into. -/
inductive GoError where
  | errorf (format : String) (args : List FmtArg)
  | wrapf (format : String) (args : List FmtArg) (cause : GoError)
  | canceled
  | deadlineExceeded
  | library (text : String)
deriving DecidableEq, Repr

/-- `if condition { return err }`. -/
def failIf (condition : Prop) [Decidable condition] (err : GoError) : Except GoError Unit :=
  if condition then .error err else .ok ()

@[simp] theorem failIf_eq_ok {condition : Prop} [Decidable condition] {err : GoError} {u : Unit} :
    failIf condition err = .ok u ↔ ¬ condition := by
  by_cases holds : condition <;> simp [failIf, holds]

theorem failIf_of_not {condition : Prop} [Decidable condition] {err : GoError} (fails : ¬ condition) :
    failIf condition err = .ok () := if_neg fails

@[simp] theorem bind_eq_ok {α β : Type} {x : Except GoError α} {f : α → Except GoError β} {b : β} :
    (x >>= f) = .ok b ↔ ∃ a, x = .ok a ∧ f a = .ok b := by
  cases x with
  | error e => simp [bind, Except.bind]
  | ok a => simp [bind, Except.bind]

@[simp] theorem ok_bind {α β : Type} (a : α) (f : α → Except GoError β) :
    ((Except.ok a : Except GoError α) >>= f) = f a := rfl

@[simp] theorem error_bind {α β : Type} (e : GoError) (f : α → Except GoError β) :
    ((Except.error e : Except GoError α) >>= f) = .error e := rfl

@[simp] theorem pure_eq_ok {α : Type} (a : α) : (pure a : Except GoError α) = .ok a := rfl

/-- `if err != nil { return fmt.Errorf("...: %w", err) }`. -/
def wrapErr {α : Type} (format : String) (args : List FmtArg) (result : Except GoError α) :
    Except GoError α :=
  match result with
  | .error cause => .error (.wrapf format args cause)
  | .ok value => .ok value

@[simp] theorem wrapErr_eq_ok {α : Type} {format : String} {args : List FmtArg}
    {result : Except GoError α} {value : α} :
    wrapErr format args result = .ok value ↔ result = .ok value := by
  cases result <;> simp [wrapErr]

/-- A result that is no success is an error. -/
theorem exists_error_of_not_ok {α : Type} {result : Except GoError α}
    (notOk : ∀ value, result ≠ .ok value) : ∃ err, result = .error err := by
  cases result with
  | error err => exact ⟨err, rfl⟩
  | ok value => exact absurd rfl (notOk value)

/-! ### Contexts -/

/-- A context, as the answers of `ctx.Err()` at the polls of a call. A poll is named by its place in
the call: the number of the poll inside a function, under the numbers of the calls that led there.
Every answer is left free, so a context may be cancelled at any point of a call. -/
abbrev Ctx := List Nat → Option GoError

namespace Ctx

/-- `context.Background()`: never cancelled. -/
def background : Ctx := fun _ => none

/-- The context as the callee at one call site polls it. -/
def call (ctx : Ctx) (site : Nat) : Ctx := fun path => ctx (site :: path)

/-- `if err := ctx.Err(); err != nil { return err }`, at one poll. -/
def check (ctx : Ctx) (poll : Nat) : Except GoError Unit :=
  match ctx [poll] with
  | some err => .error err
  | none => .ok ()

@[simp] theorem call_background (site : Nat) : background.call site = background := rfl

@[simp] theorem check_background (poll : Nat) : background.check poll = .ok () := rfl

end Ctx

/-! ### Strings -/

/-- `unicode.IsSpace`. -/
def isSpace (c : Char) : Bool :=
  c.toNat ∈ [0x09, 0x0A, 0x0B, 0x0C, 0x0D, 0x20, 0x85, 0xA0, 0x1680, 0x2028, 0x2029, 0x202F, 0x205F, 0x3000]
    || (0x2000 ≤ c.toNat && c.toNat ≤ 0x200A)

/-- Drop the characters of a class from both ends. -/
def trimBoth (drop : Char → Bool) (s : String) : String :=
  String.ofList ((s.toList.dropWhile drop).rdropWhile drop)

/-- `strings.TrimSpace`. -/
def trimSpace (s : String) : String := trimBoth isSpace s

/-- `strings.TrimRight(s, "/")`. -/
def trimRightSlash (s : String) : String :=
  String.ofList (s.toList.rdropWhile fun c => c == '/')

/-! ### Maps -/

/-- `map[string]β`: at most one value for a key, in no order the code may rely on. -/
abbrev GoMap (β : Type) := AList fun _ : String => β

/-- `m[key]` where a missing key reads as the zero value. -/
def GoMap.get {β : Type} (m : GoMap β) (key : String) (zero : β) : β := (m.lookup key).getD zero

end GoExotic
