import FieldCrypt.Broker.State
import FieldCrypt.Provider.Constant
import FieldCrypt.Provider.Reversible
import FieldCrypt.Service

/-!
# A simulated outside

The environment of services made of the broker in memory, a source of random bytes that the broker
and the sealing of texts share, and stand-ins for ciphers.
-/

namespace FieldCrypt

/-- A stand-in for a cipher. -/
inductive StandIn where
  | reversible (state : Reversible)
  | constant (state : Constant)
  deriving Inhabited

/-- Answer a question. -/
def StandIn.transform (direction : Direction) (key : KeyHandle) (text : String) :
    StandIn → Except CryptoError String × StandIn
  | reversible state =>
    let (outcome, state) := state.transform direction key text
    (outcome, reversible state)
  | constant state =>
    let (outcome, state) := state.transform direction
    (outcome, constant state)

/-- The broker, the random bytes, and the stand-ins by their names as ciphers. -/
structure Simulation where
  broker : Broker.State
  draws : Draws
  standIns : Numbered StandIn := {}

namespace Simulation

def standIn (simulation : Simulation) (cipher : CipherId) : StandIn :=
  simulation.standIns.get cipher

def setStandIn (simulation : Simulation) (cipher : CipherId) (standIn : StandIn) : Simulation :=
  { simulation with standIns := simulation.standIns.modify cipher fun _ => standIn }

/-- The environment in which everything outside is simulated. -/
def environment : Environment Simulation where
  send call simulation :=
    let (outcome, broker, draws) := simulation.broker.receive simulation.draws call
    (outcome, { simulation with broker, draws })
  draw count simulation :=
    let (bytes, draws) := simulation.draws.take count
    (bytes, { simulation with draws })
  transform cipher direction key text simulation :=
    let (outcome, standIn) := (simulation.standIn cipher).transform direction key text
    (outcome, simulation.setStandIn cipher standIn)

end Simulation

end FieldCrypt
