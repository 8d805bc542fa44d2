import TrustyApp.Library.Reactive
import TrustyApp.Library.Ipc
import TrustyApp.Library.SafeWalk
import TrustyApp.Library.Bytes
import TrustyApp.Keybox.Service
import TrustyApp.Keybox.Contexts
import TrustyApp.Hwrng.Queue
import TrustyApp.Hwrng.Progress
import TrustyApp.Hwrng.Conservation
import TrustyApp.Hwkey.Handles
import TrustyApp.Hwkey.Service
import TrustyApp.Hwkey.FakeProvider
import TrustyApp.Hwkey.Tokens
import TrustyApp.Hwkey.Access
import TrustyApp.Hwkey.Messages
import TrustyApp.Hwkey.Invariant
import TrustyApp.Hwkey.Requests
import TrustyApp.Hwkey.Sessions
import TrustyApp.Hwkey.Buffers
import TrustyApp.Hwkey.KeyFns
import TrustyApp.Keybox.Requests
import TrustyApp.Hwkey.Responses
import TrustyApp.Hwkey.KeyMaterial
import TrustyApp.Hwcrypto.App
import TrustyApp.Hwcrypto.Randomness
import TrustyApp.Hwaes.Service
import TrustyApp.Hwaes.RoundTrip
import TrustyApp.Hwaes.OpaqueKeys
import TrustyApp.Library.Memory
import TrustyApp.Swspi.Driver
import TrustyApp.Swspi.Sequence
import TrustyApp.Swspi.Bounds
import TrustyApp.Swspi.Replay
import TrustyApp.Library.Ownership
import TrustyApp.Swspi.ChipSelect
import TrustyApp.Library.Ledger
import TrustyApp.SecureFb.Service
import TrustyApp.SecureFb.Balance
import TrustyApp.Hwkey.TokenDraws
import TrustyApp.Keybox.Wrapping
import TrustyApp.Hwrng.RequestSizes
import TrustyApp.Hwkey.Statuses
import TrustyApp.Hwkey.DerivedKeys
import TrustyApp.Hwaes.Outcomes
import TrustyApp.Hwaes.Acceptance
import TrustyApp.Hwaes.Outputs
import TrustyApp.Hwcrypto.Collisions
import TrustyApp.Library.Noninterference
import TrustyApp.Hwkey.Isolation
import TrustyApp.Hwrng.Backlog
import TrustyApp.Hwcrypto.Main
import TrustyApp.Library.Refinement
import TrustyApp.Hwcrypto.Dispatch
import TrustyApp.Hwcrypto.MainLoop
import TrustyApp.MemrefTest.Lender
import TrustyApp.MemrefTest.SharedPage
import TrustyApp.MemrefTest.Client
import TrustyApp.Hwaes.Protocol
import TrustyApp.Hwaes.Linearization
import TrustyApp.Hwaes.Revocation
import TrustyApp.Swspi.Transactions
import TrustyApp.Swspi.Transfers
import TrustyApp.Hwkey.KeyServer
import TrustyApp.Hwkey.ServerRefinement
