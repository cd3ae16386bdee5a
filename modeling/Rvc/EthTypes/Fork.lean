import Mathlib.Algebra.Ring.Nat
import Mathlib.Order.Basic

/-!
# Forks

`eth_types::fork`: the consensus forks in order, the epochs they activate at, and the layouts of the block
bodies they bring.
-/

namespace Rvc.EthTypes

inductive ForkName where
  | phase0
  | altair
  | bellatrix
  | capella
  | deneb
  | electra
  | fulu
  | gloas
  deriving DecidableEq

namespace ForkName

def id : ForkName → Nat
  | .phase0 => 0
  | .altair => 1
  | .bellatrix => 2
  | .capella => 3
  | .deneb => 4
  | .electra => 5
  | .fulu => 6
  | .gloas => 7

instance : LE ForkName := ⟨fun a b => a.id ≤ b.id⟩

instance (a b : ForkName) : Decidable (a ≤ b) := inferInstanceAs (Decidable (a.id ≤ b.id))

def all : List ForkName := [.phase0, .altair, .bellatrix, .capella, .deneb, .electra, .fulu, .gloas]

def name : ForkName → String
  | .phase0 => "phase0"
  | .altair => "altair"
  | .bellatrix => "bellatrix"
  | .capella => "capella"
  | .deneb => "deneb"
  | .electra => "electra"
  | .fulu => "fulu"
  | .gloas => "gloas"

def debug : ForkName → String
  | .phase0 => "Phase0"
  | .altair => "Altair"
  | .bellatrix => "Bellatrix"
  | .capella => "Capella"
  | .deneb => "Deneb"
  | .electra => "Electra"
  | .fulu => "Fulu"
  | .gloas => "Gloas"

def fromStr (s : String) : Option ForkName := all.find? fun fork => fork.name = s

end ForkName

/-- `ForkSchedule`, without the versions, which only the signer reads. -/
structure ForkSchedule where
  altairForkEpoch : Nat
  bellatrixForkEpoch : Nat
  capellaForkEpoch : Nat
  denebForkEpoch : Nat
  electraForkEpoch : Nat
  fuluForkEpoch : Nat
  gloasForkEpoch : Nat

def ForkSchedule.entries (schedule : ForkSchedule) : List (ForkName × Nat) :=
  [(.phase0, 0), (.altair, schedule.altairForkEpoch), (.bellatrix, schedule.bellatrixForkEpoch),
    (.capella, schedule.capellaForkEpoch), (.deneb, schedule.denebForkEpoch),
    (.electra, schedule.electraForkEpoch), (.fulu, schedule.fuluForkEpoch), (.gloas, schedule.gloasForkEpoch)]

/-- `ForkName::from_epoch`: the last fork that is active. Phase 0 always is. -/
def ForkName.fromEpoch (epoch : Nat) (schedule : ForkSchedule) : ForkName :=
  match schedule.entries.reverse.find? fun entry => entry.2 ≤ epoch with
  | some entry => entry.1
  | none => .phase0

inductive BodyForkLayout where
  | deneb
  | electra
  | gloas
  deriving DecidableEq

def ForkName.bodyLayout : ForkName → Option BodyForkLayout
  | .deneb => some .deneb
  | .electra | .fulu => some .electra
  | .gloas => some .gloas
  | .phase0 | .altair | .bellatrix | .capella => none

def bodyForkLayout (consensusVersion : String) : Option BodyForkLayout :=
  (ForkName.fromStr consensusVersion).bind ForkName.bodyLayout

def cellsPerExtBlob : Nat := 128

def expectedKzgProofCount (fork : ForkName) (blobs : Nat) : Except String Nat :=
  match fork with
  | .deneb | .electra => .ok blobs
  | .fulu =>
      if blobs * cellsPerExtBlob < 2 ^ 64 then
        .ok (blobs * cellsPerExtBlob)
      else
        .error s!"kzg proof count overflow for {blobs} blobs"
  | .phase0 | .altair | .bellatrix | .capella | .gloas =>
      .error ("fork " ++ fork.debug ++ " has no kzg proof cardinality")

end Rvc.EthTypes
