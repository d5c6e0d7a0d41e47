import WirelessCharging.Scenario
import WirelessCharging.Settings.Search
import WirelessCharging.Proofs.Fifo
import WirelessCharging.Proofs.Registration
import WirelessCharging.Proofs.Extension
import WirelessCharging.Proofs.Stopping
import WirelessCharging.Proofs.Placement
import WirelessCharging.Proofs.Openness
import WirelessCharging.Proofs.Hooks
import WirelessCharging.Proofs.Recipients
import WirelessCharging.Proofs.Isolation
import WirelessCharging.Proofs.Erasure
import WirelessCharging.Proofs.Facade
import WirelessCharging.Proofs.Priority
import WirelessCharging.Proofs.Exclusion
import WirelessCharging.Proofs.Shutdown
import WirelessCharging.Proofs.Enabling
import WirelessCharging.Proofs.Ownership
import WirelessCharging.Proofs.Draining
import WirelessCharging.Proofs.Writing
import WirelessCharging.Proofs.Precedence
import WirelessCharging.Proofs.FlagTexts
