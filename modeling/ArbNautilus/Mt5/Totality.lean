import ArbNautilus.Base.JsonDump
import ArbNautilus.Mt5.Decoder

namespace ArbNautilus.Mt5.Codec

open Base

section Trees

theorem total_pure {α : Type} (a : α) : Total (pure a : Except PyError α) := nofun

mutual

theorem validateTree_total (depth : ℕ) (value : Json ℚ) : Total (validateTree depth value) := by
  rw [validateTree.eq_def]
  refine total_bind.2 ⟨total_raiseIf _ _, fun _ _ => ?_⟩
  match value with
  | .obj members =>
    exact total_bind.2 ⟨total_raiseIf _ _, fun _ _ => validateMembers_total (depth + 1) members⟩
  | .arr items => exact validateItems_total (depth + 1) items
  | .str _ | .real _ => exact total_raiseIf _ _
  | .null | .bool _ | .int _ => exact total_pure ()

theorem validateMembers_total (depth : ℕ) (members : List (PyStr × Json ℚ)) :
    Total (validateMembers depth members) := by
  match members with
  | [] => exact total_pure ()
  | member :: members =>
    rw [validateMembers]
    exact total_bind.2
      ⟨validateMembers_total depth members, fun _ _ => validateTree_total depth member.2⟩

theorem validateItems_total (depth : ℕ) (items : List (Json ℚ)) :
    Total (validateItems depth items) := by
  match items with
  | [] => exact total_pure ()
  | item :: items =>
    rw [validateItems]
    exact total_bind.2 ⟨validateItems_total depth items, fun _ _ => validateTree_total depth item⟩

end

end Trees

section Text

theorem boundedJsonInt_total (token : Text) : Total (boundedJsonInt token) := by
  unfold boundedJsonInt
  extract_lets negative digits
  split
  · exact total_wire _ _
  · exact total_ok _

theorem uniqueMembers_total {R : Type} (members : List (PyStr × Json R)) :
    Total (uniqueMembers members) := by
  unfold uniqueMembers
  split
  · exact total_ok members
  · exact total_wire _ _

theorem hooks_raising : hooks.Raising (·.isWire = true) where
  malformed := rfl
  parseInt text := boundedJsonInt_total text
  parseConstant _ := total_wire _ _
  pairs members := uniqueMembers_total members

theorem Raw.decode_total (raw : Raw) : Total raw.decode := by
  unfold Raw.decode
  split
  · split
    · exact total_wire _ _
    · split
      · exact total_wire _ _
      · exact total_ok _
  · exact total_wire _ _
  · split
    · exact total_wire _ _
    · exact total_ok _

theorem decodeJsonObject_total (raw : Raw) : Total (decodeJsonObject raw) := by
  unfold decodeJsonObject
  refine total_bind.2 ⟨raw.decode_total, fun text _ => ?_⟩
  refine total_bind.2
    ⟨fun e failed => JsonHooks.loads_raises hooks_raising failed, fun value _ => ?_⟩
  split
  · exact total_bind.2 ⟨validateTree_total 0 _, fun _ _ => total_pure _⟩
  · exact total_wire _ _

end Text

section Decoders

variable (sha256 : List UInt8 → Text)

/-- Decoding and checking is total where the checks of what was decoded are. -/
theorem decode_total (raw : Raw) (checks : Json ℚ → List Check) :
    Total (do
      let data ← decodeJsonObject raw
      runAll (checks data)
      pure data) ↔ ∀ data, decodeJsonObject raw = .ok data → Clean (checks data) := by
  rw [total_bind]
  constructor
  · intro ⟨_, rest⟩ data decoded
    exact (runAll_total _).1 (total_bind.1 (rest data decoded)).1
  · intro clean
    refine ⟨decodeJsonObject_total raw, fun data decoded => ?_⟩
    exact total_bind.2 ⟨(runAll_total _).2 (clean data decoded), fun _ _ => total_pure data⟩

/-- A decoder lets a foreign exception out exactly where a hazard is reached; the scan of a text
behind it always comes to its end. -/
theorem decoders_total (raw : Raw) :
    (∀ request, validateRequest request = .ok () →
      (Total (decodeResponseFor sha256 request raw) ↔
        ∀ response, decodeJsonObject raw = .ok response →
          Clean (responseChecks sha256 request response))) ∧
    (Total (decodePub sha256 raw) ↔
      ∀ data, decodeJsonObject raw = .ok data → Clean (pubChecks sha256 data)) ∧
    ∀ text, ∃ found, (hooks.parseValue (JsonHooks.turnsFor text)
      (JsonHooks.skipSpace text)).run = some found := by
  refine ⟨?_, decode_total raw (pubChecks sha256), hooks.loads_ends⟩
  intro request valid
  have rest := decode_total raw (responseChecks sha256 request)
  rw [decodeResponseFor, valid]
  exact rest

end Decoders

section Demo

def demoError : Json ℚ :=
  .obj [(.text "protocol".toList, str protocolName.toList), (.text "version".toList, .int 1),
    (.text "request_id".toList, str "r1".toList), (.text "op".toList, str "hello".toList),
    (.text "ok".toList, .bool false), (.text "error".toList, .obj
      [(.text "code".toList, str "MALFORMED".toList),
        (.text "message".toList, str "unbalanced JSON container".toList)])]

/-- A message as the transport hands it over. -/
def demoRaw (value : Json ℚ) : Raw := .text (.text ((dumps (fun _ => []) value).getD []))

/-- The digest of the one account of the demo. -/
def demoSha (_ : List UInt8) : Text :=
  "3cd66171d22a23866591643b8efa5ac6307cc068b69794190a7750a85099f108".toList

theorem demo_decoders :
    validateRequest (.hello "r1".toList) = .ok () ∧
    (Total (decodeResponseFor demoSha (.hello "r1".toList) (demoRaw demoError)) ↔
      ∀ response, decodeJsonObject (demoRaw demoError) = .ok response →
        Clean (responseChecks demoSha (.hello "r1".toList) response)) ∧
    (decodeResponseFor demoSha (.hello "r1".toList) (demoRaw demoError)).isOk = true :=
  have valid : validateRequest (.hello "r1".toList) = .ok () := by decide +kernel
  ⟨valid, (decoders_total demoSha (demoRaw demoError)).1 _ valid, by decide +kernel⟩

def demoIdentity : Json ℚ :=
  .obj [(.text "account_id".toList, str ("mt5-sha256-".toList ++ demoSha [])),
    (.text "broker_login".toList, str "1001".toList),
    (.text "broker_server".toList, str "Broker-Demo".toList),
    (.text "server_timezone".toList, str "UTC".toList),
    (.text "server_timezone_source".toList, str "configured_input".toList),
    (.text "boot_id".toList, str "boot".toList), (.text "ea_build_id".toList, str "ea".toList),
    (.text "declared_source_sha256".toList, str (List.replicate 64 'a')),
    (.text "execution_enabled".toList, .bool true), (.text "magic".toList, str "7".toList),
    (.text "stream_id".toList, str "stream".toList), (.text "symbol".toList, str "XAUUSD".toList),
    (.text "terminal_build".toList, .int 4000)]

/-- A hello whose recovery state is an array. -/
def unhashableHello : Json ℚ :=
  .obj [(.text "protocol".toList, str protocolName.toList), (.text "version".toList, .int 1),
    (.text "request_id".toList, str "r1".toList), (.text "op".toList, str "hello".toList),
    (.text "ok".toList, .bool true), (.text "data".toList, .obj
      [(.text "capabilities".toList, .arr (capabilities.map fun word => str word.toList)),
        (.text "identity".toList, demoIdentity), (.text "recovery_state".toList, .arr [])])]

def raised {α : Type} : Except PyError α → Option PyError
  | .ok _ => none
  | .error e => some e

theorem not_total_of_raised {α : Type} {x : Except PyError α} {e : PyError} (h : raised x = some e)
    (foreign : e.isWire = false) : ¬Total x := by
  intro total
  cases x with
  | ok a => cases h
  | error e' =>
    cases h
    exact Bool.false_ne_true (foreign.symm.trans (total e rfl))

/-- A recovery state that is an array is looked up in a set before its type is known. -/
theorem type_error_escapes :
    validateRequest (.hello "r1".toList) = .ok () ∧
      ¬Total (decodeResponseFor demoSha (.hello "r1".toList) (demoRaw unhashableHello)) :=
  ⟨by decide +kernel,
    not_total_of_raised (e := .typeError "unhashable type") (by decide +kernel) rfl⟩

end Demo

end ArbNautilus.Mt5.Codec
