import LowLatency.Library.Transition
import LowLatency.Library.Location
import LowLatency.Library.Wrapping
import LowLatency.Library.Service
import LowLatency.Library.Span
import LowLatency.Library.DirectedTerrace
import LowLatency.Library.Flags
import LowLatency.Library.FirstArrivals
import LowLatency.Library.Raising
import LowLatency.Library.OrderStatistics
import LowLatency.Library.Csv
import LowLatency.Library.BoundedQueue
import LowLatency.Library.Pipe
import LowLatency.Library.Progress
import LowLatency.Library.Fairness
import LowLatency.Library.Monitor
import LowLatency.Disruptor.Ring
import LowLatency.Disruptor.Traversals
import LowLatency.Disruptor.Machine
import LowLatency.Disruptor.Producer
import LowLatency.Disruptor.Consumer
import LowLatency.Disruptor.Invariant
import LowLatency.Disruptor.Rollover
import LowLatency.Disruptor.Delivery
import LowLatency.Disruptor.Reuse
import LowLatency.Disruptor.Representation
import LowLatency.Disruptor.Backpressure
import LowLatency.Disruptor.MulticastLog
import LowLatency.Disruptor.Sequential
import LowLatency.Disruptor.Refinement
import LowLatency.Disruptor.Linearization
import LowLatency.Disruptor.WaitFreedom
import LowLatency.Disruptor.Lockstep
import LowLatency.Disruptor.Draining
import LowLatency.Disruptor.DebugBuild
import LowLatency.Disruptor.ExclusivePublication
import LowLatency.Disruptor.DebugSimulation
import LowLatency.Disruptor.OperationLedger
import LowLatency.Sockets.Stream
import LowLatency.Sockets.Framing
import LowLatency.Sockets.Loop
import LowLatency.Sockets.Polling
import LowLatency.Sockets.SendAll
import LowLatency.Sockets.BusySpin
import LowLatency.Sockets.Resume
import LowLatency.Sockets.Datagram
import LowLatency.Sockets.Cancellation
import LowLatency.Sockets.DatagramQueue
import LowLatency.SocketLatency.Configuration
import LowLatency.SocketLatency.Wire
import LowLatency.SocketLatency.UdpServer
import LowLatency.SocketLatency.UdpClient
import LowLatency.SocketLatency.UdpRun
import LowLatency.SocketLatency.Summarizer
import LowLatency.SocketLatency.UdpAccounting
import LowLatency.SocketLatency.UdpCounters
import LowLatency.SocketLatency.UdpClientCounters
import LowLatency.SocketLatency.Messages
import LowLatency.SocketLatency.ReceiveAll
import LowLatency.SocketLatency.TcpRun
import LowLatency.SocketLatency.TcpExchange
import LowLatency.SocketLatency.TcpAccounting
import LowLatency.SocketLatency.TcpRank
import LowLatency.SocketLatency.TcpProgress
import LowLatency.Schedule.Williams
import LowLatency.Schedule.Tournament
import LowLatency.Schedule.TournamentValidation
import LowLatency.PairedBenchmark.Validation
import LowLatency.PairedBenchmark.Phases
import LowLatency.PairedBenchmark.Handshake
import LowLatency.PairedBenchmark.StreamValidation
import LowLatency.PairedBenchmark.CsvFields
import LowLatency.Percentiles.Index
import LowLatency.Percentiles.Summary
import LowLatency.WaitStrategy.Latency
import LowLatency.WaitStrategy.InFlight
import LowLatency.PairedLatency.RunLatency
import LowLatency.PairedLatency.InFlight
import LowLatency.PairedLatency.Samples
import LowLatency.PairedLatency.Flags
import LowLatency.PairedLatency.Outcome
import LowLatency.PairedLatency.Rank
import LowLatency.PairedLatency.Termination
import LowLatency.Throughput.Rings
import LowLatency.Throughput.SpscMachine
import LowLatency.Throughput.Queues
import LowLatency.LatencyBenchmark.BlockingSlot
import LowLatency.LatencyBenchmark.BlockingExchange
import LowLatency.LatencyBenchmark.BlockingProgress
import LowLatency.LatencyBenchmark.BatchSamples
import LowLatency.LatencyBenchmark.BatchProgress
