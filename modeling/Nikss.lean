import Nikss.Common
import Nikss.CString
import Nikss.Btf.Types
import Nikss.Btf.Follow
import Nikss.Btf.Member
import Nikss.Btf.Size
import Nikss.Btf.MapType
import Nikss.Kernel.State
import Nikss.Kernel.Calls
import Nikss.Map.Open
import Nikss.Kernel.Quiet
import Nikss.Kernel.Xdp
import Nikss.Pipeline.Load
import Nikss.Pipeline.Phases
import Nikss.Pipeline.Order
import Nikss.Pipeline.Sound
import Nikss.Pipeline.Codes
import Nikss.Pipeline.Objects
import Nikss.Pipeline.Unload
import Nikss.Port.Attach
import Nikss.Port.Repeat
import Nikss.Port.Detach
import Nikss.Port.List
import Nikss.Pipeline.Isolation
import Nikss.Pipeline.Ownership
import Nikss.Port.Handles
import Nikss.Port.Listed
import Nikss.Pipeline.Leaks
import Nikss.Pipeline.Total
import Nikss.Port.Interfaces
import Nikss.Port.Codes
import Nikss.Pipeline.Reload
