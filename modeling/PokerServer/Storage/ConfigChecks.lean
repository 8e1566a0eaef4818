import PokerServer.Lib.Int64
import PokerServer.Storage.InMemoryGameStore

/-!
# The checks on a table configuration

The rule for a `TableConfig` is written three times: in `Table::validateConfig`
(`src/poker/domain/table.cpp`), in the protocol layer's `validConfig`
(`apps/server/protocol_service.cpp`) and in `InMemoryGameStore::createTable`. Each doubles the small
blind, which comes straight from a client, in 64 bits; here the product is `wrap`ped. The schema
(`deploy/mysql/init/001_schema.sql`) states the rule in exact arithmetic, `TableConfig.InSchema`.

* `accepts_same`: the three copies accept the same configurations.
* `configChecks_exact_iff`: they are the schema's rule except where the doubled small blind is
  2^63 or more: it wraps to a negative number, and any big blind from there on is accepted.
-/

namespace PokerServer

open Signed64

namespace TableConfig

/-- The amounts of a configuration are 64-bit integers. -/
structure InRange (config : TableConfig) : Prop where
  smallBlind : Fits config.smallBlind
  bigBlind : Fits config.bigBlind
  minBuyIn : Fits config.minBuyIn
  maxBuyIn : Fits config.maxBuyIn

/-- `Table::validateConfig`, in 64-bit arithmetic. -/
def validateConfig64 (config : TableConfig) : TableError :=
  if config.minPlayers < 2 ∨ config.maxPlayers < config.minPlayers ∨ 6 < config.maxPlayers
      ∨ config.smallBlind ≤ 0 ∨ config.bigBlind < wrap (config.smallBlind * 2)
      ∨ config.minBuyIn ≤ 0 ∨ config.maxBuyIn < config.minBuyIn then .invalidConfiguration
  else .ok

/-- `validConfig` of the protocol layer, in 64-bit arithmetic. -/
def validConfig (config : TableConfig) : Bool :=
  2 ≤ config.minPlayers && config.minPlayers ≤ config.maxPlayers && config.maxPlayers ≤ 6
    && 0 < config.smallBlind && wrap (config.smallBlind * 2) ≤ config.bigBlind
    && 0 < config.minBuyIn && config.minBuyIn ≤ config.maxBuyIn

/-- The rule, for a small blind that doubles to `doubled`. -/
structure Allows (config : TableConfig) (doubled : Int) : Prop where
  players : 2 ≤ config.minPlayers ∧ config.minPlayers ≤ config.maxPlayers ∧ config.maxPlayers ≤ 6
  blinds : 0 < config.smallBlind ∧ doubled ≤ config.bigBlind
  buyIn : 0 < config.minBuyIn ∧ config.minBuyIn ≤ config.maxBuyIn

/-- The player counts the code allows, and the `CHECK` constraints of `poker_tables`. -/
abbrev InSchema (config : TableConfig) : Prop := config.Allows (config.smallBlind * 2)

/-- What all three copies of the rule come to. -/
abbrev Accepted (config : TableConfig) : Prop := config.Allows (wrap (config.smallBlind * 2))

end TableConfig

/-- `InMemoryGameStore::createTable`, in 64-bit arithmetic. -/
def InMemoryGameStore.createTable64 (store : InMemoryGameStore) (table : TableRecord) :
    StorageError × InMemoryGameStore :=
  if table.tableId = 0 ∨ table.createdBy = 0 ∨ table.name = "" ∨ table.nodeId = ""
      ∨ table.config.minPlayers < 2 ∨ table.config.maxPlayers < table.config.minPlayers
      ∨ 6 < table.config.maxPlayers ∨ table.config.smallBlind ≤ 0
      ∨ table.config.bigBlind < wrap (table.config.smallBlind * 2) ∨ table.config.minBuyIn ≤ 0
      ∨ table.config.maxBuyIn < table.config.minBuyIn then (.invalidData, store)
  else if (store.tables.lookup table.tableId).isSome then (.duplicate, store)
  else (.ok, store.setTable table.tableId { record := table })

/-- The other fields of a record that `createTable` checks. -/
def TableRecord.Complete (table : TableRecord) : Prop :=
  table.tableId ≠ 0 ∧ table.createdBy ≠ 0 ∧ table.name ≠ "" ∧ table.nodeId ≠ ""

namespace TableConfig

variable {config : TableConfig}

/-! ## The three copies -/

theorem validateConfig64_iff : config.validateConfig64 = .ok ↔ config.Accepted := by
  unfold validateConfig64
  constructor
  · intro h
    split at h
    · exact absurd h (by simp)
    · exact ⟨by omega, by omega, by omega⟩
  · rintro ⟨hplayers, hblinds, hbuyIn⟩
    exact if_neg (by omega)

theorem validConfig_iff : config.validConfig = true ↔ config.Accepted := by
  unfold validConfig
  simp only [Bool.and_eq_true, decide_eq_true_eq]
  constructor
  · rintro ⟨⟨⟨⟨⟨⟨hmin, hle⟩, hmax⟩, hsmall⟩, hbig⟩, hlow⟩, hhigh⟩
    exact ⟨⟨hmin, hle, hmax⟩, ⟨hsmall, hbig⟩, hlow, hhigh⟩
  · rintro ⟨⟨hmin, hle, hmax⟩, ⟨hsmall, hbig⟩, hlow, hhigh⟩
    exact ⟨⟨⟨⟨⟨⟨hmin, hle⟩, hmax⟩, hsmall⟩, hbig⟩, hlow⟩, hhigh⟩

/-- A complete record is refused as invalid for its configuration only. -/
theorem createTable64_iff {store : InMemoryGameStore} {table : TableRecord}
    (h : table.Complete) :
    (store.createTable64 table).1 ≠ .invalidData ↔ table.config.Accepted := by
  obtain ⟨hid, hcreator, hname, hnode⟩ := h
  unfold InMemoryGameStore.createTable64
  simp only [hid, hcreator, hname, hnode, false_or]
  constructor
  · intro hcall
    split at hcall
    · exact absurd rfl hcall
    · exact ⟨by omega, by omega, by omega⟩
  · rintro ⟨hplayers, hblinds, hbuyIn⟩
    rw [if_neg (by omega)]
    split <;> simp

/-- **The three copies accept the same configurations.** -/
theorem accepts_same (config : TableConfig) :
    (config.validateConfig64 = .ok ↔ config.validConfig = true) ∧
      ∀ (store : InMemoryGameStore) (table : TableRecord), table.Complete →
        table.config = config →
        ((store.createTable64 table).1 ≠ .invalidData ↔ config.validConfig = true) := by
  refine ⟨validateConfig64_iff.trans validConfig_iff.symm, fun store table hcomplete hconfig => ?_⟩
  rw [validConfig_iff, createTable64_iff hcomplete, hconfig]

/-! ## The schema's rule -/

/-- The doubled small blind does not fit, and the big blind is not below what it wraps to. -/
structure Overflows (config : TableConfig) : Prop where
  players : 2 ≤ config.minPlayers ∧ config.minPlayers ≤ config.maxPlayers ∧ config.maxPlayers ≤ 6
  blinds : 2 ^ 62 ≤ config.smallBlind ∧ config.smallBlind * 2 - 2 ^ 64 ≤ config.bigBlind
  buyIn : 0 < config.minBuyIn ∧ config.minBuyIn ≤ config.maxBuyIn

/-- A small blind of at most 62 bits is doubled exactly. -/
theorem wrap_double (hpos : 0 < config.smallBlind) (hsmall : config.smallBlind < 2 ^ 62) :
    wrap (config.smallBlind * 2) = config.smallBlind * 2 :=
  wrap_of_fits ⟨by omega, by omega⟩

theorem wrap_double_of_large (hlarge : 2 ^ 62 ≤ config.smallBlind) (h : config.InRange) :
    wrap (config.smallBlind * 2) = config.smallBlind * 2 - 2 ^ 64 := by
  have hfits := h.smallBlind.2
  exact wrap_of_large (by omega) (by omega)

/-- What is accepted is in the schema, or overflows. -/
theorem accepted_iff (h : config.InRange) :
    config.Accepted ↔ config.InSchema ∨ config.Overflows := by
  have hbig := h.bigBlind.2
  by_cases hlarge : 2 ^ 62 ≤ config.smallBlind
  · have hwrap := wrap_double_of_large hlarge h
    constructor
    · rintro ⟨hplayers, ⟨-, hblinds⟩, hbuyIn⟩
      exact Or.inr ⟨hplayers, ⟨hlarge, by omega⟩, hbuyIn⟩
    · rintro (⟨-, ⟨-, hblinds⟩, -⟩ | ⟨hplayers, ⟨-, hblinds⟩, hbuyIn⟩)
      · omega
      · exact ⟨hplayers, ⟨by omega, by omega⟩, hbuyIn⟩
  · constructor
    · rintro ⟨hplayers, ⟨hpos, hblinds⟩, hbuyIn⟩
      have hwrap := wrap_double hpos (by omega)
      exact Or.inl ⟨hplayers, ⟨hpos, by omega⟩, hbuyIn⟩
    · rintro (⟨hplayers, ⟨hpos, hblinds⟩, hbuyIn⟩ | ⟨-, ⟨hover, -⟩, -⟩)
      · have hwrap := wrap_double hpos (by omega)
        exact ⟨hplayers, ⟨hpos, by omega⟩, hbuyIn⟩
      · exact absurd hover hlarge

/-- In the schema the doubled small blind fits. -/
theorem InSchema.not_overflows (h : config.InRange) (hschema : config.InSchema) :
    ¬ config.Overflows := by
  intro hover
  have hbig := h.bigBlind.2
  have hblinds := hschema.blinds.2
  have hlarge := hover.blinds.1
  omega

/-- The three checks accept the same configurations, those of the schema. -/
structure ChecksExact (config : TableConfig) : Prop where
  table : config.validateConfig64 = .ok ↔ config.InSchema
  protocol : config.validConfig = true ↔ config.InSchema
  store : ∀ (store : InMemoryGameStore) (table : TableRecord), table.Complete →
    table.config = config →
    ((store.createTable64 table).1 ≠ .invalidData ↔ config.InSchema)

/-- **The checks are exact iff the doubled small blind does not overflow into acceptance.** -/
theorem configChecks_exact_iff (h : config.InRange) : config.ChecksExact ↔ ¬ config.Overflows := by
  constructor
  · intro hexact hover
    have haccepted := (accepted_iff h).mpr (Or.inr hover)
    exact (hexact.protocol.mp (validConfig_iff.mpr haccepted)).not_overflows h hover
  · intro hover
    have hschema : config.Accepted ↔ config.InSchema := (accepted_iff h).trans (or_iff_left hover)
    exact ⟨validateConfig64_iff.trans hschema, validConfig_iff.trans hschema,
      fun store table hcomplete hconfig => (createTable64_iff hcomplete).trans (hconfig ▸ hschema)⟩

/-- The largest small blind that is doubled exactly. -/
theorem configChecks_exact_large :
    ∃ config : TableConfig, config.smallBlind = 2 ^ 62 - 1 ∧ config.ChecksExact := by
  let config : TableConfig := { smallBlind := 2 ^ 62 - 1, bigBlind := 2 ^ 63 - 2 }
  have hrange : config.InRange := ⟨by decide, by decide, by decide, by decide⟩
  refine ⟨config, rfl, (configChecks_exact_iff hrange).mpr fun hover => ?_⟩
  exact absurd hover.blinds.1 (by decide)

/-- With a small blind of 2^62 no big blind is needed. -/
theorem overflow_accepted :
    ¬ ({ smallBlind := 2 ^ 62, bigBlind := 0 } : TableConfig).ChecksExact := by
  intro h
  exact absurd (h.protocol.mp (by decide)).blinds.2 (by decide)

end TableConfig

end PokerServer
