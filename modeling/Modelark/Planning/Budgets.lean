import Modelark.Planning.Types
import Modelark.Library.Tally
import Modelark.Library.Doubles
import Modelark.StreamZnn.Container

/-!
# Budgets

The per-file durable and workspace figures that every planner uses, and their roll-up into the
budget of a candidate: durable figures add up, workspace peaks do not.
-/

namespace Modelark.Planning

open Library

inductive Codec where
  | whole
  | stream
  | zstd
  | raw
  deriving Repr, DecidableEq

/-- The compression gate. `fitsMemory size` is the floating-point comparison of four times the
    shard with the memory budget. -/
structure CompressionConfig where
  fitsMemory : Nat → Bool
  streamCompress : Bool
  zstdInstalled : Bool

def planCodec (shardBytes : Nat) (cfg : CompressionConfig) : Codec :=
  if cfg.fitsMemory shardBytes then .whole
  else if cfg.streamCompress then .stream
  else if cfg.zstdInstalled then .zstd
  else .raw

def defaultChunk : Nat := 64 * 1024 * 1024

/-- The documented single-frame bound of `ZSTD_compressBound`. -/
def zstdOutputCap (rawSize : Nat) : Nat :=
  rawSize + rawSize / 2 ^ 8 +
    if rawSize < 128 * 1024 then (128 * 1024 - rawSize) / 2 ^ 11 else 0

/-- The number of chunks is the ceiling of a quotient in floating point. -/
def codecOutputCap (rawSize : Nat) (codec : Codec) (streamChunkBytes : Nat) : Nat :=
  match codec with
  | .raw => 0
  | .stream => rawSize + StreamZnn.magic.length + 4 * ceilQuotient rawSize streamChunkBytes
  | .zstd => zstdOutputCap rawSize
  | .whole => rawSize

/-- The output cap of the codec that a file of this size is compressed with. -/
def workspaceCap (cfg : CompressionConfig) (size : Nat) : Nat :=
  codecOutputCap size (planCodec size cfg) defaultChunk

/-- The frozen configuration of one planning run. `expectedDurableBytes` is the estimate from the
    observed compression ratio and the safety margin, in floating point. -/
structure BudgetConfig where
  compression : CompressionConfig
  expectedDurableBytes : ManifestFile → Nat

def fileBudget (cfg : BudgetConfig) (item : ManifestFile) (exactSourceBytes : Option Nat)
    (replica : Bool) : FileBudget :=
  let expected := cfg.expectedDurableBytes item
  match exactSourceBytes with
  | some value => ⟨item.rfilename, value, value, value, value, "exact"⟩
  | none =>
      if replica then ⟨item.rfilename, expected, expected, expected, expected, "estimate"⟩
      else
        let compresses := item.storageAction = .compress ∧
          planCodec item.sizeBytes cfg.compression ≠ .raw
        let outputCap := workspaceCap cfg.compression item.sizeBytes
        { rfilename := item.rfilename
          guaranteedDurable := item.sizeBytes
          expectedDurable := expected
          workspacePeakGuaranteed := if compresses then outputCap else 0
          workspacePeakExpected :=
            if compresses then item.sizeBytes + outputCap - expected else 0
          evidence := "estimate" }

def aggregate (fileBudgets : List FileBudget) : CandidateBudget where
  guaranteedDurable := total FileBudget.guaranteedDurable fileBudgets
  expectedDurable := total FileBudget.expectedDurable fileBudgets
  workspacePeakGuaranteed := peak FileBudget.workspacePeakGuaranteed fileBudgets
  workspacePeakExpected := peak FileBudget.workspacePeakExpected fileBudgets
  fileBudgets := fileBudgets

end Modelark.Planning
