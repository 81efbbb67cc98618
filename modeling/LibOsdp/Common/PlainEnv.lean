/-
An environment to run concrete inputs in, for either role.
-/
import LibOsdp.Common.State
import LibOsdp.Lib.Crc

namespace LibOsdp

open Lib

/-- An environment with everything in working order: the application
accepts what it is handed, the channel takes what it is given, and no
file operations are registered. -/
def plainEnv (cipher : BlockCipher) (rand : Nat → UInt8) : Env where
  cipher := cipher
  crc16 := crc16 0x1D0F
  rand := rand
  channelSend _ data := data.length
  commandCallback := some fun _ _ => {}
  eventCompletion := some fun _ _ _ => {}
  eventCallback := some fun _ _ _ => {}
  commandCompletion := some fun _ _ _ _ => {}
  fileOps :=
    { openFile := fun _ _ _ => (-1, 0)
      readFile := fun _ _ _ => (-1, [])
      writeFile := fun _ _ _ => -1
      closeFile := fun _ => 0
      finalize := none }

end LibOsdp
