import Warpshell.Interaction.Session
import Warpshell.Shells.Isolation
import Warpshell.Shells.Size
import Warpshell.Shells.Refusal
import Warpshell.Shells.Unfinished
import Warpshell.Shells.DeadLink
import Warpshell.Shells.Once
import Warpshell.Mailbox.Requests
import Warpshell.Mailbox.Monitor
import Warpshell.Mailbox.Clients
import Warpshell.Mailbox.Window
import Warpshell.CardInfo.Parse
import Warpshell.CardInfo.Bounds
import Warpshell.CardInfo.Decode
import Warpshell.Port.Programs
import Warpshell.Port.Packets
import Warpshell.Xdma.Connect
import Warpshell.Cores.Readings
import Warpshell.Interaction.Parallel
import Warpshell.Shells.Tasks
import Warpshell.Shells.Shielding
import Warpshell.Interaction.Atomic
import Warpshell.Cores.Decoupling
import Warpshell.Interaction.Triple
import Warpshell.Port.Device
import Warpshell.Port.Readback
import Warpshell.Shells.Delivery
import Warpshell.Mailbox.Publication
import Warpshell.Interaction.Lower
import Warpshell.Xdma.Transport
import Warpshell.Xdma.Regions
import Warpshell.CardInfo.Display
import Warpshell.Cli.Main
import Warpshell.Cli.Delivery
import Warpshell.Cli.Report
import Warpshell.Cli.Power
import Warpshell.Interaction.History
import Warpshell.Shells.Attempts
import Warpshell.Port.Bursts
import Warpshell.Shells.Sessions
