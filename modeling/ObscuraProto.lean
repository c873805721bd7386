import ObscuraProto.Payload.OutOfRange
import ObscuraProto.Unpacking.RoundTrip
import ObscuraProto.Unpacking.Agreement
import ObscuraProto.Dispatcher.Request
import ObscuraProto.Dispatcher.Configuration
import ObscuraProto.Bridge.SingleUse
import ObscuraProto.Bridge.SettlesOnce
import ObscuraProto.Bridge.PollingWaits
import ObscuraProto.Bridge.TimeoutOwners
import ObscuraProto.Bridge.Untimely
import ObscuraProto.Bridge.Starvation
import ObscuraProto.Bridge.Latency
import ObscuraProto.Callback.IoThread
import ObscuraProto.Callback.NestedCalls
import ObscuraProto.Callback.IdentityCheck
import ObscuraProto.Stream.Ordering
import ObscuraProto.Stream.Shutdown
import ObscuraProto.Stream.ErrorHandlers
import ObscuraProto.Stream.Incoming
import ObscuraProto.Stream.Delivery
import ObscuraProto.Stream.CallOrder
import ObscuraProto.Endpoint.RemoteCalls
import ObscuraProto.Endpoint.ExecutorShutdown
import ObscuraProto.Endpoint.StreamHalf
import ObscuraProto.Endpoint.NativeReturn
import ObscuraProto.Endpoint.HandlerOrder
