import MppSdk.ChannelStore
import MppSdk.Interleaving
import MppSdk.SessionServer
import MppSdk.SessionSteps
import MppSdk.Solvency
import MppSdk.Continuity
import MppSdk.Settlement
import MppSdk.DeliveryLedger
import MppSdk.FailureAtomicity
import MppSdk.Codec
import MppSdk.Transaction
import MppSdk.TransactionDecoding
import MppSdk.ChargeTypes
import MppSdk.Sponsorship
import MppSdk.InstructionEffects
import MppSdk.PreBroadcast
import MppSdk.FeePayerSafety
import MppSdk.OnChain
import MppSdk.Ownership
import MppSdk.ChargeServer
import MppSdk.SingleUse
import MppSdk.TsPreBroadcast
import MppSdk.TsQuoteAllowlist
import MppSdk.TsQuoteMatching
import MppSdk.TsOnChain
import MppSdk.TsServer
import MppSdk.TsSingleUse
import MppSdk.GoServer
import MppSdk.GoFeePayer
import MppSdk.Matching
import MppSdk.PaymentQuote
import MppSdk.QuoteAllowlist
import MppSdk.ExactPayment
import MppSdk.Base64Url
import MppSdk.ChallengeBinding
import MppSdk.SessionClient
import MppSdk.MeteredStream
import MppSdk.Increments
import MppSdk.Simulation
import MppSdk.TsSessionClient
import MppSdk.CommitSteps
import MppSdk.TsSessionConsumer
import MppSdk.TsConcurrentAcks
import MppSdk.TsFetchTargets
import MppSdk.CommitExchange
import MppSdk.ExactlyOnce
import MppSdk.OpenAgreement
import MppSdk.Admission
import MppSdk.ValueConservation
import MppSdk.PaymentChannels
import MppSdk.SessionWire
import MppSdk.GoSingleUse
import MppSdk.ParseUnits
import MppSdk.ParseExact
import MppSdk.GoSplits
import MppSdk.Headers
import MppSdk.TsPaymentChannels
import MppSdk.PySingleUse
import MppSdk.ChargeClient
import MppSdk.TsChargeClient
import MppSdk.GoChargeClient
import MppSdk.Finality
import MppSdk.GeneratedIds
import MppSdk.VoucherMinimum
import MppSdk.HttpStream
import MppSdk.TsHttpStream
import MppSdk.TsStreamCuts
import MppSdk.SseAgreement
import MppSdk.Blocks
import MppSdk.GoHeaders
import MppSdk.GoMixedSchemes
import MppSdk.VerifierAgreement
import MppSdk.VoucherAgreement
import MppSdk.ExpiredReservations
import MppSdk.PyParseExact
import MppSdk.LuaStd
import MppSdk.LuaBase64url
import MppSdk.LuaUint
import MppSdk.LuaVerify
import MppSdk.LuaExactPayment
import MppSdk.Binary64
import MppSdk.LuaNumber
import MppSdk.LuaJson
import MppSdk.LuaJsonReading
import MppSdk.LuaJsonRoundTrip
import MppSdk.LuaJsonText
import MppSdk.LuaHeaders
import MppSdk.Calendar
import MppSdk.LuaExpires
import MppSdk.ScriptElement
import MppSdk.LuaJsonMarks
import MppSdk.LuaPaymentPage
import MppSdk.Sha256
import MppSdk.LuaCrypto
import MppSdk.PyHeaders
import MppSdk.PyHeaderPieces
import MppSdk.PyMixedSchemes
import MppSdk.Answers
import MppSdk.LuaSolPayment
import MppSdk.LuaServer
import MppSdk.LuaServerRuns
import MppSdk.LuaCharge
import MppSdk.Credentials
import MppSdk.PaymentGate
import MppSdk.PaymentGateRuns
import MppSdk.HonouredOffers
import MppSdk.PushExchange
import MppSdk.RefusedRequests
import MppSdk.ChallengeInterop
import MppSdk.HeaderInterop
