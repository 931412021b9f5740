import AcuGateway.AuthFlowOnce
import AcuGateway.BillingConservation
import AcuGateway.ChannelAdmin
import AcuGateway.ChannelSelect
import AcuGateway.ChatRoundTrip
import AcuGateway.ChatToClaudeContent
import AcuGateway.ChatToClaudeShape
import AcuGateway.ChatToResponsesShape
import AcuGateway.ClaudeRequestToChat
import AcuGateway.ClaudeStreamUsage
import AcuGateway.ClaudeToChat
import AcuGateway.EpayPrice
import AcuGateway.ExprCache
import AcuGateway.GeminiRequestToChat
import AcuGateway.GeminiResponseToChat
import AcuGateway.GeminiUsage
import AcuGateway.HeaderMapping
import AcuGateway.KeyPolling
import AcuGateway.ParamOverride
import AcuGateway.ProtectedFetch
import AcuGateway.Redemption
import AcuGateway.RelayRetry
import AcuGateway.ResponsesRequestToChat
import AcuGateway.ResponsesToolArguments
import AcuGateway.SubscriptionGroup
import AcuGateway.SubscriptionLedger
import AcuGateway.SubscriptionRefund
import AcuGateway.SubscriptionReset
import AcuGateway.SubscriptionUsage
import AcuGateway.TaskSettledOnce
import AcuGateway.TaskSettlement
import AcuGateway.TieredParams
import AcuGateway.TokenBucket
import AcuGateway.TopUpExactlyOnce
import AcuGateway.TwoFA
import AcuGateway.UsageAcrossFormats
import AcuGateway.UsageChargeOnce
import AcuGateway.UserAuthCache
