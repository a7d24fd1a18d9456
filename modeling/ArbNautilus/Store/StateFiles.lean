import ArbNautilus.Base.Bytes
import ArbNautilus.Base.Decimal
import ArbNautilus.Store.Reopened

/-! The files of an owner: which of them it opens at a prefix, and the one it publishes there. -/

namespace ArbNautilus.Store

open Base

/-- What a path holds: the bytes of a file, or something that is no file. -/
inductive Entry where
  | file (content : List UInt8)
  | other
deriving DecidableEq

abbrev Files := String → Option Entry

def makerStatePath (stem : String) : String := stem ++ ".maker.json"

def sharedStatePath (stem : String) : String := stem ++ ".shared.json"

def makerLegacyPaths (stem : String) : List String := [stem ++ ".bid.json", stem ++ ".ask.json"]

def readBytes (files : Files) (path : String) : Except Raised (List UInt8) :=
  match files path with
  | some (.file content) => .ok content
  | _ => .error .osError

/-- `read_text(encoding="utf-8")`. -/
def readText (files : Files) (path : String) : Except Raised Text := do
  let content ← readBytes files path
  match decodeUtf8 content with
  | some text => .ok (universalNewlines text)
  | none => .error (.valueError "'utf-8' codec can't decode")

namespace OwnerArgs

/-- What `__init__` asks of its arguments. -/
def check (args : OwnerArgs) : Except Raised Unit := do
  raiseIf (args.instruments.sourceInstrumentId = "" ∨ args.instruments.hedgeInstrumentId = "")
    (.valueError "Maker state requires both instrument bindings")
  raiseIf (∃ ids ∈ args.sharedStrategyIds,
      strip ids.1.toList = [] ∨ strip ids.2.toList = [] ∨ ids.1 = ids.2)
    (.valueError "shared state requires distinct Maker and Taker strategy IDs")
  raiseIf (¬(0 ≤ args.residualLimit ∧ args.residualLimit ≤ 1 / 2))
    (.valueError "Maker residual limit must be finite and between zero and 0.5")
  raiseIf (0 < args.residualLimit ∧ ¬∃ route ∈ args.carryRoute,
      route.sourceAccountId.getD "" ≠ "" ∧ route.hedgeAccountId.getD "" ≠ "")
    (.valueError "bounded Maker state requires an explicit account route")

def statePath (args : OwnerArgs) (stem : String) : String :=
  if args.sharedStrategyIds.isSome then sharedStatePath stem else makerStatePath stem

end OwnerArgs

section Open

variable (repr : Value → String) (floatText : Text → Text) (args : OwnerArgs)

/-- `MakerStateStore.__init__` at a prefix. -/
def openAt (files : Files) (stem : String) : Except Raised MakerStateStore := do
  args.check
  let found := files (args.statePath stem)
  raiseIf (found = none ∧ ∃ path ∈ makerLegacyPaths stem, files path ≠ none)
    (.valueError "legacy Maker state requires explicit migration before startup")
  raiseIf (args.sharedStrategyIds.isSome ∧ found = none ∧ files (makerStatePath stem) ≠ none)
    (.valueError "shared state cannot merge an existing standalone Maker file")
  if found = none then do
    (newOwner args).cfg.validate (newOwner args).book
    pure (newOwner args)
  else do
    let text ← readText files (args.statePath stem)
    openFile repr floatText args text

/-- The files with an owner's file in its place, as `_persist_payload` leaves them. -/
def publishOwner (o : MakerStateStore) (stem : String) (files : Files) : Files :=
  Function.update files (args.statePath stem)
    (some (.file (utf8 (o.cfg.fileText args o.book))))

end Open

section Published

variable {repr : Value → String} {floatText : Text → Text} {args : OwnerArgs}

/-- Bytes that a text was written to are read as the text, when nothing in it ends a line early. -/
theorem readText_utf8 {files : Files} {path : String} {text : Text} (plain : '\r' ∉ text)
    (held : files path = some (.file (utf8 text))) : readText files path = .ok text := by
  have bytes : readBytes files path = .ok (utf8 text) := by rw [readBytes, held]
  simp [readText, bytes, decodeUtf8_utf8, universalNewlines_eq plain, bind, Except.bind]

theorem carriage_not_mem_fileText (cfg : OwnerConfig) (b : Book) : '\r' ∉ cfg.fileText args b := by
  intro member
  have printable := printable_dumpAscii (plain_owner cfg b) '\r' member
  exact absurd printable (by decide)

theorem publishOwner_other {o : MakerStateStore} {stem path : String} {files : Files}
    (other : path ≠ args.statePath stem) : publishOwner args o stem files path = files path :=
  Function.update_of_ne other _ _

/-- What an owner publishes is what the next one opens. -/
theorem openAt_publishOwner {o : MakerStateStore} (filed : Filed args o)
    (checked : args.check = .ok ()) (stem : String) (files : Files) :
    openAt repr floatText args (publishOwner args o stem files) stem =
      .ok ⟨o.cfg, o.book.ordered, o.book.ordered, false⟩ := by
  have held : publishOwner args o stem files (args.statePath stem) =
      some (.file (utf8 (o.cfg.fileText args o.book))) := Function.update_self _ _ _
  have text := readText_utf8 (carriage_not_mem_fileText o.cfg o.book) held
  have opened := @openFile_fileText repr floatText args o filed
  rw [← filed.settled.same] at opened
  simp [openAt, checked, held, text, opened, raiseIf, bind, Except.bind]

end Published

end ArbNautilus.Store
