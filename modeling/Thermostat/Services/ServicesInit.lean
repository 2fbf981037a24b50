import Thermostat.Drivers.Correctness.UsartTransmission

/-!
# `Services.ServicesInit` — what is said on the serial port at start-up

`print_fw_info` and `services_init` of `services_init.cpp`, as far as they use the serial port, with `fw_info_t`
of `fw_info.hpp` and `UsartDriver::flush`. The beeper and the controller that `services_init` builds are those
of `App.boot`.

Interrupts are enabled while this code runs. A `Console` is the program between two of its statements or inside
a `write_str` call, whose steps are those of `Sender`; `flush` is one step per look at the buffer.
-/

namespace Thermostat

/-- `fw_info_t`. The texts end with a `NUL` inside their arrays. -/
structure FwInfo where
  magic : UInt32
  tag : List Char
  commit : List Char
  tagFits : tag.length < 32
  commitFits : commit.length < 16

namespace FwInfo

def fwInfoMagic : UInt32 := 0xDEADBEEF

end FwInfo

/-- The strings that `print_fw_info` hands to `write_str`, in this order. -/
def printFwInfo (info : FwInfo) : List (List Char) :=
  if info.magic ≠ FwInfo.fwInfoMagic then ["FW info not valid\r\n".toList]
  else
    [ "=== Firmware Info ===\r\n".toList,
      "Tag: ".toList,
      info.tag,
      "\r\n".toList,
      "Commit: ".toList,
      info.commit,
      "\r\n".toList,
      "=====================\r\n".toList ]

/-- The two ways in which `services_init` uses the serial port. -/
inductive Console.Statement where
  | writeStr (s : List Char)
  | flush
deriving DecidableEq, Repr

def readyMessage : List Char := "System ready.\r\n".toList

def servicesInit (info : FwInfo) : List Console.Statement :=
  (printFwInfo info).map .writeStr ++ [.flush, .writeStr readyMessage]

/-- The serial port with the call in progress, and the statements that come after it. -/
structure Console (txBuffSize rxBuffSize : Nat) where
  sender : Sender txBuffSize rxBuffSize
  rest : List Console.Statement

namespace Console

variable {txBuffSize rxBuffSize : Nat}

/-- A step of the main program, and what happens beside it. -/
inductive Input where
  | advance
  | irq
  | transmitted
  | arrive (byte : UInt8)
deriving DecidableEq, Repr

/-- One step of the main program: inside a call, at the next statement, or one turn of the loop of `flush`. -/
def advance (c : Console txBuffSize rxBuffSize) : Console txBuffSize rxBuffSize :=
  match c.sender.phase with
  | .idle =>
      match c.rest with
      | [] => c
      | .writeStr s :: rest => { sender := (c.sender.step (.call (Sender.textOf s))).1, rest := rest }
      | .flush :: rest => if c.sender.driver.txBuf.items.isEmpty then { c with rest := rest } else c
  | _ => { c with sender := c.sender.advance }

def step (c : Console txBuffSize rxBuffSize) : Input → Console txBuffSize rxBuffSize × List Unit
  | .advance     => (c.advance, [])
  | .irq         => ({ c with sender := (c.sender.step .irq).1 }, [])
  | .transmitted => ({ c with sender := (c.sender.step .transmitted).1 }, [])
  | .arrive byte => ({ c with sender := (c.sender.step (.arrive byte)).1 }, [])

/-- `services_init` at its beginning: the serial port is as `Init` leaves it. -/
def start (info : FwInfo) : Console txBuffSize rxBuffSize := ⟨Sender.start UsartDriver.init, servicesInit info⟩

/-- `services_init` has returned. -/
def Finished (c : Console txBuffSize rxBuffSize) : Prop := c.sender.phase = .idle ∧ c.rest = []

end Console
end Thermostat
