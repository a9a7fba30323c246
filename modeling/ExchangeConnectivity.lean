import ExchangeConnectivity.PercentEncoding
import ExchangeConnectivity.DecimalStrings
import ExchangeConnectivity.MarketDataParserAgreement
import ExchangeConnectivity.RestSessionCompletion
import ExchangeConnectivity.OrderResponses
import ExchangeConnectivity.SignedQueries
import ExchangeConnectivity.OrderSubmissionCallbacks
import ExchangeConnectivity.WebSocketQueue
import ExchangeConnectivity.WebSocketSessionOperations
import ExchangeConnectivity.WebSocketSessionBuffers
import ExchangeConnectivity.StoppedStreams
import ExchangeConnectivity.RedirectAgreement
import ExchangeConnectivity.PooledConnections
import ExchangeConnectivity.SnapshotDelivery
import ExchangeConnectivity.BinanceRestClientErrors
import ExchangeConnectivity.OrderRequestAgreement
import ExchangeConnectivity.DepthMessages
import ExchangeConnectivity.TradeAgreement
import ExchangeConnectivity.WebSocketClose
import ExchangeConnectivity.RedirectLimit
import ExchangeConnectivity.RingBufferRefinement
import ExchangeConnectivity.PoolAvailability
import ExchangeConnectivity.PipelineAgreement
import ExchangeConnectivity.Base64
import ExchangeConnectivity.StripAgreement
import ExchangeConnectivity.ParsedResponses
import ExchangeConnectivity.IntegerAmounts
import ExchangeConnectivity.RedirectTargets
import ExchangeConnectivity.ConfigurationPorts
import ExchangeConnectivity.SubscribeRequests
import ExchangeConnectivity.SplitRuns
import ExchangeConnectivity.StringChunks
import ExchangeConnectivity.HexRoundTrips
import ExchangeConnectivity.HeaderFields
import ExchangeConnectivity.QueueThreads
import ExchangeConnectivity.UserDataStreamSessions
import ExchangeConnectivity.OrderTransmissions
import ExchangeConnectivity.EndpointCache
import ExchangeConnectivity.ConnectorSessions
import ExchangeConnectivity.RedirectedCalls
import ExchangeConnectivity.PrintedAmounts
import ExchangeConnectivity.MessageFields
import ExchangeConnectivity.ConfigurationLookup
import ExchangeConnectivity.SubscriptionTexts
import ExchangeConnectivity.DeliveredUpdates
import ExchangeConnectivity.WebSocketReconnects
import ExchangeConnectivity.SecuredConnections
import ExchangeConnectivity.SnapshotExchanges
import ExchangeConnectivity.EndingCalls
import ExchangeConnectivity.CharacterRemoval
import ExchangeConnectivity.HexNumerals
