import HicnTransport.Core.Bytes
import HicnTransport.Core.Name
import HicnTransport.Hiperf.NackPacket
import HicnTransport.Hiperf.Server
import HicnTransport.Hiperf.LiveProduction
import HicnTransport.Hiperf.RtcServer
import HicnTransport.Hiperf.RtcClient
import HicnTransport.Hiperf.Trace
import HicnTransport.Hiperf.Report
import HicnTransport.Hiperf.TestMode
import HicnTransport.Hiperf.ContentRing
import HicnTransport.Hiperf.Conversions
import HicnTransport.Hiperf.Rate
import HicnTransport.Hiperf.Getopt
import HicnTransport.Hiperf.Options
import HicnTransport.Hiperf.ServerSetup
import HicnTransport.Interfaces.Statistics
import HicnTransport.Protocols.IncrementalIndexer
import HicnTransport.Protocols.ManifestIncrementalIndexer
import HicnTransport.Implementation.TlsProducerSocket.KeyId
import HicnTransport.Implementation.TlsProducerSocket.Socket
import HicnTransport.Implementation.TlsProducerSocket.Stream
import HicnTransport.Implementation.TlsProducerSocket.Handshake
