import Sweetcomb.Lib.EarlyExit
import Sweetcomb.Lib.LoopVariables
import Sweetcomb.Lib.SharedStore
import Sweetcomb.Lib.Text
import Sweetcomb.Lib.Runs
import Sweetcomb.Lib.TwoPhase
import Sweetcomb.Lib.Octets
import Sweetcomb.Lib.FieldRewrite
import Sweetcomb.Lib.ArrayFill
import Sweetcomb.Lib.CallOnce
import Sweetcomb.Lib.LinkedList
import Sweetcomb.Sysrepo
import Sweetcomb.Asio
import Sweetcomb.SysUtil
import Sweetcomb.Netmask
import Sweetcomb.PrefixCover
import Sweetcomb.PrefixText
import Sweetcomb.Vom
import Sweetcomb.Session
import Sweetcomb.IetfInterface
import Sweetcomb.InterfaceLoop
import Sweetcomb.OpenconfigInterfaces
import Sweetcomb.InterfaceLeaves
import Sweetcomb.OcAgreement
import Sweetcomb.IetfNat
import Sweetcomb.IetfAddress
import Sweetcomb.AddressLoop
import Sweetcomb.NatLoop
import Sweetcomb.NatBuilder
import Sweetcomb.InitialValues
import Sweetcomb.InterfaceChangeSet
import Sweetcomb.NatChangeSet
import Sweetcomb.NatMeaning
import Sweetcomb.Callbacks
import Sweetcomb.ObjectKeys
import Sweetcomb.AddressChangeSet
import Sweetcomb.AddressRequests
import Sweetcomb.AddressEntries
import Sweetcomb.AddressExact
import Sweetcomb.AddressLeaks
import Sweetcomb.SubnetChange
import Sweetcomb.AddressErrors
import Sweetcomb.IteratorRelease
import Sweetcomb.ValueRelease
import Sweetcomb.RejectedChanges
import Sweetcomb.ReadAlike
import Sweetcomb.NestedLeaves
import Sweetcomb.InterfaceLifetime
import Sweetcomb.TwoPhaseCommit
import Sweetcomb.PluginUpdates
import Sweetcomb.Accountability
import Sweetcomb.CrashCauses
import Sweetcomb.Configuration
import Sweetcomb.MappingTable
import Sweetcomb.ReachableStates
import Sweetcomb.HealthCheck
import Sweetcomb.HealthRecovery
import Sweetcomb.VppPid
import Sweetcomb.ProcHandles
import Sweetcomb.StateValues
import Sweetcomb.IetfState
import Sweetcomb.StateValidity
import Sweetcomb.OcState
import Sweetcomb.InterfaceStatistics
import Sweetcomb.StateReplies
import Sweetcomb.ScInit
import Sweetcomb.Dependencies
import Sweetcomb.Registrations
import Sweetcomb.ScPlugins
import Sweetcomb.InitRetries
import Sweetcomb.DeliveryOrder
