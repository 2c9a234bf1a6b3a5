/-
Module: GoExotic.Model.Controls
Purpose: The controls of the dashboard and their copies in localStorage. Every change of a control is written there,
  unless the browser refuses it; a reload reads the copies, or falls back to the defaults. Other tabs may write
  to the same storage.
Trusted boundary: String and Number of the browser, through NumberLib
Main exports: NumberLib, LocalStorage, loadString, loadNumber, loadBoundedNumber, ControlValues, Page, Page.step
-/
import GoExotic.Model.DashboardRequests

namespace GoExotic

/-! ### Storage -/

/-- The numbers of the browser that are finite: `String`, `Number` with `none` for what is not finite, and the
integers of the source. -/
structure NumberLib (N : Type) where
  print : N → String
  parse : String → Option N
  ofNat : Nat → N

/-- What `localStorage` holds. -/
abbrev LocalStorage := String → Option String

/-- `loadString`; a storage that throws is `none`. -/
def loadString (storage : Option LocalStorage) (key fallback : String) : String :=
  match storage with
  | none => fallback
  | some items => orElse ((items key).getD "") fallback

/-- `saveValue`, with the text of the value, if the browser writes it. -/
def saveValue (written : Bool) (key value : String) (items : LocalStorage) : LocalStorage :=
  if written then Function.update items key (some value) else items

section Numbers

variable {N : Type} [LinearOrder N] (lib : NumberLib N)

/-- `loadNumber`. -/
def loadNumber (storage : Option LocalStorage) (key : String) (fallback : N) : N :=
  match lib.parse (loadString storage key (lib.print fallback)) with
  | some parsed => if lib.ofNat 0 < parsed then parsed else fallback
  | none => fallback

/-- `loadBoundedNumber`. -/
def loadBoundedNumber (storage : Option LocalStorage) (key : String) (fallback low high : N) : N :=
  max low (min high (loadNumber lib storage key fallback))

/-! ### The page -/

/-- The controls of `App`. -/
structure ControlValues (N : Type) where
  layers : N
  model : String
  modelPath : String
  modelRoot : String
  modelLimit : N
deriving DecidableEq, Repr

/-- The initial states of `App`, with the storage that each of its reads finds. -/
def ControlValues.load (storage : String → Option LocalStorage) : ControlValues N where
  layers := loadNumber lib (storage "go-exotic.layers") "go-exotic.layers" (lib.ofNat 4)
  model := loadString (storage "go-exotic.model") "go-exotic.model" "demo"
  modelPath := loadString (storage "go-exotic.modelPath") "go-exotic.modelPath" "../go-pherence/models/demo"
  modelRoot := loadString (storage "go-exotic.modelRoot") "go-exotic.modelRoot" "../go-pherence/models"
  modelLimit := loadBoundedNumber lib (storage "go-exotic.modelLimit") "go-exotic.modelLimit" (lib.ofNat 50)
    (lib.ofNat 1) (lib.ofNat 200)

/-- The page: the storage of its origin, and its controls. -/
structure Page (N : Type) where
  items : LocalStorage
  controls : ControlValues N

/-- The storage that the read of a key finds, if the browser lets the key be read. -/
def readableItems (items : LocalStorage) (readable : String → Bool) (key : String) : Option LocalStorage :=
  if readable key then some items else none

/-- What can happen to the page. A number that is typed and not finite is `none`; `written` says whether the browser
writes to the storage, and `readable` which keys it lets be read. -/
inductive Page.Step (N : Type) where
  | setLayers (value : Option N) (written : Bool)
  | setModel (value : String) (written : Bool)
  | setModelPath (value : String) (written : Bool)
  | setModelRoot (value : String) (written : Bool)
  | setModelLimit (value : Option N) (written : Bool)
  | reloads (readable : String → Bool)
  | othersWrite (items : LocalStorage)

/-- The number of layers `setLayers` sets. -/
def nextLayers (value : Option N) : N :=
  match value with
  | some value => max (lib.ofNat 1) value
  | none => lib.ofNat 1

/-- The limit `setModelLimit` sets. -/
def nextModelLimit (value : Option N) : N :=
  match value with
  | some value => max (lib.ofNat 1) (min (lib.ofNat 200) value)
  | none => lib.ofNat 1

/-- One step. -/
def Page.step (p : Page N) : Page.Step N → Page N
  | .setLayers value written =>
      let next := nextLayers lib value
      ⟨saveValue written "go-exotic.layers" (lib.print next) p.items, { p.controls with layers := next }⟩
  | .setModel value written =>
      ⟨saveValue written "go-exotic.model" value p.items, { p.controls with model := value }⟩
  | .setModelPath value written =>
      ⟨saveValue written "go-exotic.modelPath" value p.items, { p.controls with modelPath := value }⟩
  | .setModelRoot value written =>
      ⟨saveValue written "go-exotic.modelRoot" value p.items, { p.controls with modelRoot := value }⟩
  | .setModelLimit value written =>
      let next := nextModelLimit lib value
      ⟨saveValue written "go-exotic.modelLimit" (lib.print next) p.items, { p.controls with modelLimit := next }⟩
  | .reloads readable => { p with controls := .load lib (readableItems p.items readable) }
  | .othersWrite items => { p with items := items }

/-- The page after some steps. -/
def Page.after (p : Page N) (steps : List (Page.Step N)) : Page N := steps.foldl (Page.step lib) p

/-- The page when it is first loaded. -/
def Page.opened (items : LocalStorage) (readable : String → Bool) : Page N :=
  ⟨items, .load lib (readableItems items readable)⟩

end Numbers

end GoExotic
