import ChipEight.Computer
import ChipEight.Signed
import ChipEight.Text.ByteSize

/-!
# A usual computer

One computer that there is, with numbers of its own: the codes of its keys, the longest side of a
window and the memory that it has. Only what runs on it depends on them.

The keys of its keyboard have codes. A single character is the key that types it, by its code point;
other keys have names, in which capital letters do not matter. Most of these keys type nothing: they
are counted from `KeyName.functionKeys` on, and their names are listed in rows of neighbours. Some
keys have a second name.

The sides of a window are kept in thirty-two bits, so of a very long side only the lowest bits
matter. A window for which no size is left takes that of the desktop.

* `KeyName.code?` is the code of a key, `windowSize` the size of a window, and `room` the memory for
  samples;
* `Computer.usual` is the computer, with any mixer.
-/

namespace ChipEight

namespace KeyName

/-- The codes of keys that type nothing begin here. -/
def functionKeys : Int := 0x40000000

/-- The names of keys that type a character. -/
def typing : List (String × Int) :=
  [("backspace", 8), ("tab", 9), ("return", 13), ("escape", 27), ("space", 32), ("delete", 127)]

/-- The names of the other keys: the number of the first of a row, and the row. -/
def rows : List (Nat × List String) :=
  [(57, ["capslock", "f1", "f2", "f3", "f4", "f5", "f6", "f7", "f8", "f9", "f10", "f11", "f12",
    "printscreen", "scrolllock", "pause", "insert", "home", "pageup"]),
   (77, ["end", "pagedown", "right", "left", "down", "up", "numlock", "keypad /", "keypad *",
    "keypad -", "keypad +", "keypad enter", "keypad 1", "keypad 2", "keypad 3", "keypad 4",
    "keypad 5", "keypad 6", "keypad 7", "keypad 8", "keypad 9", "keypad 0", "keypad ."]),
   (101, ["application", "power", "keypad =", "f13", "f14", "f15", "f16", "f17", "f18", "f19",
    "f20", "f21", "f22", "f23", "f24", "execute", "help", "menu", "select", "stop", "again",
    "undo", "cut", "copy", "paste", "find", "mute", "volumeup", "volumedown"]),
   (133, ["keypad ,", "keypad = (as400)"]),
   (153, ["alterase", "sysreq", "cancel", "clear", "prior"]),
   (159, ["separator", "out", "oper", "clear / again", "crsel", "exsel"]),
   (176, ["keypad 00", "keypad 000", "thousandsseparator", "decimalseparator", "currencyunit",
    "currencysubunit", "keypad (", "keypad )", "keypad \x7b", "keypad \x7d", "keypad tab",
    "keypad backspace", "keypad a", "keypad b", "keypad c", "keypad d", "keypad e", "keypad f",
    "keypad xor", "keypad ^", "keypad %", "keypad <", "keypad >", "keypad &", "keypad &&",
    "keypad |", "keypad ||", "keypad :", "keypad #", "keypad space", "keypad @", "keypad !",
    "keypad memstore", "keypad memrecall", "keypad memclear", "keypad memadd",
    "keypad memsubtract", "keypad memmultiply", "keypad memdivide", "keypad +/-", "keypad clear",
    "keypad clearentry", "keypad binary", "keypad octal", "keypad decimal", "keypad hexadecimal"]),
   (224, ["left ctrl", "left shift", "left alt", "left gui", "right ctrl", "right shift",
    "right alt", "right gui"]),
   (257, ["modeswitch", "audionext", "audioprev", "audiostop", "audioplay", "audiomute",
    "mediaselect", "www", "mail", "calculator", "computer", "ac search", "ac home", "ac back",
    "ac forward", "ac stop", "ac refresh", "ac bookmarks", "brightnessdown", "brightnessup",
    "displayswitch", "kbdillumtoggle", "kbdillumdown", "kbdillumup", "eject", "sleep", "app1",
    "app2", "audiorewind", "audiofastforward", "softleft", "softright", "call", "endcall"])]

/-- Second names of keys, each with the number of its key. -/
def secondNames : List (String × Nat) :=
  [("caps lock", 57), ("print screen", 70), ("scroll lock", 71), ("break", 72), ("page up", 75),
   ("page down", 78), ("[/]", 84), ("[*]", 85), ("[-]", 86), ("[+]", 87), ("enter", 88),
   ("[1]", 89), ("[2]", 90), ("[3]", 91), ("[4]", 92), ("[5]", 93), ("[6]", 94), ("[7]", 95),
   ("[8]", 96), ("[9]", 97), ("[0]", 98), ("[.]", 99), ("equals", 103), ("sys req", 154),
   ("euro", 180), ("left meta", 227), ("right meta", 231), ("alt gr", 257)]

/-- Every key with a name, by the names in small letters. -/
def table : List (String × Int) :=
  typing ++ (rows.flatMap (fun row => row.2.zipIdx row.1) ++ secondNames).map fun key =>
    (key.1, functionKeys + key.2)

/-- The code of a key. The character with code zero is no key. -/
def code? (name : String) : Option Int :=
  match name.toList with
  | [c] => if c.toNat = 0 then none else some c.toLower.toNat
  | _ => (table.find? (·.1 = name.toLower)).map (·.2)

end KeyName

namespace Computer.Usual

/-- How many bits a side of a window is kept in. -/
def sideBits : Nat := 32

/-- No side of a window is longer than this. -/
def longestSide : Nat := 16384

/-- The width and the height of the desktop. -/
def desktop : Nat × Nat := (1024, 768)

/-- The size of a window that is to be so many points wide and high. -/
def windowSize (width height : Int) : Except Refusal (Nat × Nat) :=
  if ¬(Signed.Fits 64 width ∧ Signed.Fits 64 height) then
    .error ⟨"TypeError", "size must be two numbers"⟩
  else
    let width := Signed.cut sideBits width
    let height := Signed.cut sideBits height
    if width < 0 ∨ height < 0 then .error ⟨"error", "Cannot set negative sized display mode"⟩
    else if width = 0 ∧ height = 0 then .ok desktop
    else .ok (min width.toNat longestSide, min height.toNat longestSide)

/-- How many bytes a sample takes while a wave is made. -/
def sampleBytes : Nat := 8

/-- How many bytes a sample takes in a channel. -/
def channelBytes : Nat := 2

/-- There is memory for less than so many bytes. -/
def memoryBound : Nat := 0x200000000

/-- There are more bytes than can be counted. -/
def tooLarge : Refusal :=
  ⟨"ValueError",
    "array is too big; `arr.size * arr.dtype.itemsize` is larger than the maximum possible size."⟩

/-- There is no memory for so many bytes, which were to hold numbers in a certain form. -/
def noMemory (bytes : Nat) (shape form : String) : Refusal :=
  ⟨"MemoryError", "Unable to allocate " ++ Text.ByteSize.text bytes ++ " for an array with shape "
    ++ shape ++ " and data type " ++ form⟩

/-- The memory for samples. -/
def room : Room where
  samples count :=
    if 0x8000000000000000 ≤ count then .error ⟨"ValueError", "Maximum allowed size exceeded"⟩
    else if 0x8000000000000000 ≤ count * sampleBytes then .error tooLarge
    else if memoryBound ≤ count * sampleBytes then
      .error (noMemory (count * sampleBytes) s!"({count},)" "int64")
    else .ok ()
  channels count channels :=
    let bytes := count * channels.toNat * channelBytes
    if ¬Signed.Fits 64 channels then
      .error ⟨"OverflowError", "Python int too large to convert to C long"⟩
    else if 0x8000000000000000 ≤ bytes then .error tooLarge
    else if memoryBound ≤ bytes then
      .error (noMemory bytes s!"({count}, {channels.toNat})" "int16")
    else .ok ()

end Computer.Usual

/-- A usual computer with a mixer. -/
def Computer.usual (mixer : Mixer) : Computer where
  keyCode? := KeyName.code?
  window := Usual.windowSize
  room := Usual.room
  mixer := mixer

end ChipEight
