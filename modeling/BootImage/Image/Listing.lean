import BootImage.Bytes
import BootImage.Text.Characters

/-! The output formats of an image and memory words as text: plain hexadecimal lines, the COE, MEM
and MIF initialization files, and VHDL package bodies with the date of the build. Every word has
eight digits; formats with addresses count them from zero. -/

namespace BootImage

inductive Format where
  | appBin
  | appVhd
  | bldVhd
  | rawHex
  | rawBin
  | rawCoe
  | rawMem
  | rawMif
  deriving DecidableEq, Repr

namespace Format

def all : List Format := [appBin, appVhd, bldVhd, rawHex, rawBin, rawCoe, rawMem, rawMif]

def name : Format → String
  | appBin => "app_bin"
  | appVhd => "app_vhd"
  | bldVhd => "bld_vhd"
  | rawHex => "raw_hex"
  | rawBin => "raw_bin"
  | rawCoe => "raw_coe"
  | rawMem => "raw_mem"
  | rawMif => "raw_mif"

def isSigned (format : Format) : Bool := format == bldVhd

def signed : List Format := all.filter isSigned

def ofName? (name : String) : Option Format := all.find? fun format => format.name == name

theorem ofName?_name (format : Format) : ofName? format.name = some format := by
  cases format <;> decide

end Format

structure DateTime where
  year : Nat
  month : Nat
  day : Nat
  hour : Nat
  minute : Nat
  second : Nat
  deriving DecidableEq, Repr

inductive DateError where
  | year (value : Int)
  | month
  | day
  | hour
  | minute
  | second
  | microsecond
  deriving DecidableEq, Repr

def DateError.message : DateError → String
  | .year value => s!"year {value} is out of range"
  | .month => "month must be in 1..12"
  | .day => "day is out of range for month"
  | .hour => "hour must be in 0..23"
  | .minute => "minute must be in 0..59"
  | .second => "second must be in 0..59"
  | .microsecond => "microsecond must be in 0..999999"

namespace DateTime

def isLeap (year : Nat) : Bool := year % 4 == 0 && (year % 100 != 0 || year % 400 == 0)

def daysInMonth (year month : Nat) : Nat :=
  if month = 2 then (if isLeap year then 29 else 28)
  else if month = 4 ∨ month = 6 ∨ month = 9 ∨ month = 11 then 30
  else 31

/-- The first field that is out of range decides the error. Microseconds are checked, not kept. -/
def make (year month day hour minute second microsecond : Int) : Except DateError DateTime :=
  if year < 1 ∨ 9999 < year then .error (.year year)
  else if month < 1 ∨ 12 < month then .error .month
  else if day < 1 ∨ daysInMonth year.toNat month.toNat < day then .error .day
  else if hour < 0 ∨ 23 < hour then .error .hour
  else if minute < 0 ∨ 59 < minute then .error .minute
  else if second < 0 ∨ 59 < second then .error .second
  else if microsecond < 0 ∨ 999999 < microsecond then .error .microsecond
  else .ok ⟨year.toNat, month.toNat, day.toNat, hour.toNat, minute.toNat, second.toNat⟩

/-- Day, month and year, then the time; all but the year have two digits. -/
def stamp (t : DateTime) : String :=
  Text.decimal 2 t.day ++ "." ++ Text.decimal 2 t.month ++ "." ++ Text.decimal 1 t.year ++ " " ++
    Text.decimal 2 t.hour ++ ":" ++ Text.decimal 2 t.minute ++ ":" ++ Text.decimal 2 t.second

end DateTime

end BootImage

namespace BootImage.Listing

def digits (w : UInt32) : String := Text.hex 8 w.toNat

def hex (ws : List UInt32) : String := String.join (ws.map fun w => digits w ++ "\n")

def coe (ws : List UInt32) : String :=
  "memory_initialization_radix=16;\n" ++ "memory_initialization_vector=\n" ++
    String.intercalate ",\n" (ws.map digits) ++ ";\n"

def memLine (entry : UInt32 × Nat) : String :=
  "@" ++ Text.hex 8 entry.2 ++ " " ++ digits entry.1 ++ "\n"

def mem (ws : List UInt32) : String := String.join (ws.zipIdx.map memLine)

def mifLine (entry : UInt32 × Nat) : String :=
  Text.hex 8 entry.2 ++ " : " ++ digits entry.1 ++ ";\n"

def mif (ws : List UInt32) : String :=
  "DEPTH = " ++ Text.decimal 1 ws.length ++ ";\n" ++ "WIDTH = 32;\n" ++ "ADDRESS_RADIX = HEX;\n" ++
    "DATA_RADIX = HEX;\n" ++ "CONTENT\n" ++ "BEGIN\n" ++ String.join (ws.zipIdx.map mifLine) ++
    "END;\n"

structure Package where
  memory : String
  name : String
  stem : String
  deriving DecidableEq, Repr

namespace Package

def application : Package := ⟨"IMEM", "neorv32_application_image", "application"⟩

def bootloader : Package := ⟨"BOOTROM", "neorv32_bootloader_image", "bootloader"⟩

end Package

def vhdlEntry (w : UInt32) : String := "x\"" ++ digits w ++ "\""

def vhdlOpening (package : Package) (source : String) (built : DateTime) (size : Nat) : String :=
  "-- The NEORV32 RISC-V Processor - github.com/stnolting/neorv32\n" ++
  "-- Auto-generated memory initialization image (for internal " ++ package.memory ++ ")\n" ++
  "-- Source: " ++ source ++ "\n" ++
  "-- Built: " ++ built.stamp ++ "\n" ++
  "\n" ++
  "library ieee;\n" ++
  "use ieee.std_logic_1164.all;\n" ++
  "\n" ++
  "library neorv32;\n" ++
  "use neorv32.neorv32_package.all;\n" ++
  "\n" ++
  "package " ++ package.name ++ " is\n" ++
  "\n" ++
  "constant " ++ package.stem ++ "_init_size_c  : natural := " ++ Text.decimal 1 size ++
    "; -- bytes\n" ++
  "constant " ++ package.stem ++ "_init_image_c : mem32_t := (\n"

def vhdlTable (ws : List UInt32) : String :=
  String.intercalate ",\n" (ws.map vhdlEntry) ++ "\n" ++ ");\n"

def vhdlClosing (package : Package) : String := "\nend " ++ package.name ++ ";\n"

def vhdlApplication (source : String) (built : DateTime) (size : Nat) (ws : List UInt32) : String :=
  vhdlOpening .application source built size ++ vhdlTable ws ++ vhdlClosing .application

/-- The table that a bootloader carries beside its code: the signature, then the code size. -/
def vhdlSecureBoot (signature : List UInt32) (codeWords : Nat) : String :=
  "constant bootloader_init_secure_boot_info_c : mem32_t := (\n" ++
    String.join (signature.map fun w => vhdlEntry w ++ ",\n") ++
    "x\"" ++ Text.hex 8 codeWords ++ "\" -- Bootloader code size\n" ++ ");\n"

def vhdlBootloader (source : String) (built : DateTime) (size : Nat) (ws signature : List UInt32) :
    String :=
  vhdlOpening .bootloader source built size ++ vhdlTable ws ++
    vhdlSecureBoot signature ws.length ++ vhdlClosing .bootloader

end BootImage.Listing
