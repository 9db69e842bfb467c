import Inlay.Proofs.Command.Failing

set_option autoImplicit false

namespace Inlay

open Text Workspace

namespace Command

section Ending

variable {running : Running} {fails : Failing → Prop} {code output : Text} {trouble : Trouble}

end Ending

section Loading

variable {running : Running} {projectRoot? : Option Text} {command : Command}

end Loading

section Commands

variable {running : Running} {settings : Settings} {failing : Failing}

end Commands

end Command

end Inlay
