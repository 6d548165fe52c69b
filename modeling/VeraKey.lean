import VeraKey.Abi
import VeraKey.AbiBytes
import VeraKey.Account
import VeraKey.AccountAddress
import VeraKey.Action
import VeraKey.AnswerLog
import VeraKey.Applied
import VeraKey.Approval
import VeraKey.Assumptions
import VeraKey.Async
import VeraKey.Authorization
import VeraKey.Base64Url
import VeraKey.ByteCodec
import VeraKey.Changes
import VeraKey.Circuit
import VeraKey.ClaimStore
import VeraKey.ClientActions
import VeraKey.ClientAuthorized
import VeraKey.ClientData
import VeraKey.ClientDataAgree
import VeraKey.ClientProtocol
import VeraKey.ClientSafety
import VeraKey.ClientSignIn
import VeraKey.Clone
import VeraKey.Coercion
import VeraKey.Config
import VeraKey.Connect
import VeraKey.ConnectMoves
import VeraKey.ConnectPopup
import VeraKey.ConnectSafety
import VeraKey.CookieExact
import VeraKey.CookieHeader
import VeraKey.DailyCap
import VeraKey.Deployment
import VeraKey.Entry
import VeraKey.EvmMemory
import VeraKey.Factory
import VeraKey.FaucetOnce
import VeraKey.Field
import VeraKey.FiniteRun
import VeraKey.FirstPayment
import VeraKey.FormatTotal
import VeraKey.Freeze
import VeraKey.FundsFlow
import VeraKey.Guard
import VeraKey.Guardian
import VeraKey.History
import VeraKey.Implementation
import VeraKey.Internals
import VeraKey.IpAddress
import VeraKey.JobTable
import VeraKey.Json
import VeraKey.JsonText
import VeraKey.KeyedLock
import VeraKey.KeyedSet
import VeraKey.Kit
import VeraKey.KitCookies
import VeraKey.LeadsTo
import VeraKey.LimitsFit
import VeraKey.MessageHash
import VeraKey.Mutex
import VeraKey.MutexOrder
import VeraKey.MutexTurns
import VeraKey.Network
import VeraKey.NonceOnce
import VeraKey.Nullifier
import VeraKey.OwnerCheckMoves
import VeraKey.OwnerChecks
import VeraKey.OwnerSet
import VeraKey.OwnerStaleness
import VeraKey.Owners
import VeraKey.PageConsistency
import VeraKey.PageKept
import VeraKey.PagePayments
import VeraKey.PageSession
import VeraKey.PasskeyClient
import VeraKey.PasskeyStore
import VeraKey.PaymentPolicy
import VeraKey.PaymentSheet
import VeraKey.Payments
import VeraKey.PaymentsOnce
import VeraKey.PaymentsRefused
import VeraKey.PendingTable
import VeraKey.PeriodCounter
import VeraKey.Pinned
import VeraKey.PlayerId
import VeraKey.PrfGuard
import VeraKey.Promises
import VeraKey.PublicInputs
import VeraKey.RateCalls
import VeraKey.RateLimiter
import VeraKey.RecentMap
import VeraKey.Recovery
import VeraKey.RelayBudgets
import VeraKey.RelayLimits
import VeraKey.RelayOnce
import VeraKey.RelayRequest
import VeraKey.RelayWire
import VeraKey.Relayer
import VeraKey.RelayerMoves
import VeraKey.Reservation
import VeraKey.Run
import VeraKey.SafetyActions
import VeraKey.SdkAction
import VeraKey.SdkBase64
import VeraKey.SdkBytes
import VeraKey.SdkText
import VeraKey.SessionMoves
import VeraKey.Sessions
import VeraKey.Sha256
import VeraKey.SignIn
import VeraKey.SignInRun
import VeraKey.SignOut
import VeraKey.SignatureCodec
import VeraKey.SlotTable
import VeraKey.Spending
import VeraKey.Statements
import VeraKey.Step
import VeraKey.TextCodec
import VeraKey.Timelock
import VeraKey.TypedChange
import VeraKey.Validation
import VeraKey.Validator
import VeraKey.VeraKeyStore
import VeraKey.VisitorAddress
import VeraKey.Waiting
import VeraKey.WaitingFits
import VeraKey.WireText
import VeraKey.Word
