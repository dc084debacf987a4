import PkixSsh.Addr.CidrList
import PkixSsh.Agent.Reads
import PkixSsh.Agent.Survival
import PkixSsh.Auth.MergedOptions
import PkixSsh.Auth.MethodOrder
import PkixSsh.Auth.MonitorSoundness
import PkixSsh.Auth.OptionsScan
import PkixSsh.Auth.Progress
import PkixSsh.Buffer.Lifetimes
import PkixSsh.Channels.Isolation
import PkixSsh.Channels.Window
import PkixSsh.Hmac
import PkixSsh.Hostfile.KnownHosts
import PkixSsh.Hostfile.ProveHostkeys
import PkixSsh.Kex.Assemble
import PkixSsh.Kex.Derive
import PkixSsh.Key.Certify
import PkixSsh.Krl.Signatures
import PkixSsh.Krl.Verdict
import PkixSsh.Match.FirstCommon
import PkixSsh.Match.PatternList
import PkixSsh.Misc.Argv
import PkixSsh.Packet.Rekey
import PkixSsh.Scp.Sink
import PkixSsh.Sftp.Download
import PkixSsh.Sftp.Server
import PkixSsh.Sftp.Upload
import PkixSsh.Sshbuf.Fields
import PkixSsh.Store.Crl
import PkixSsh.Store.Ocsp
import PkixSsh.X509.Attribute
