import VideoComputer.Memory.Word

/-!
# Colours

The colours of an NTSC television: sixteen hues in eight luminances. A colour code holds the hue
in its high digit and the luminance in bits 3 to 1; bit 0 has no effect.
-/

namespace VideoComputer.Palette

/-- Opaque colours, one hue to a row from dark to bright: opacity, red, green and blue bytes. -/
def table : Vector (Vector UInt32 8) 16 := #v[
  -- grey
  #v[0xFF000000, 0xFF404040, 0xFF6C6C6C, 0xFF909090,
     0xFFB0B0B0, 0xFFC8C8C8, 0xFFDCDCDC, 0xFFECECEC],
  -- gold
  #v[0xFF444400, 0xFF646410, 0xFF848424, 0xFFA0A034,
     0xFFB8B840, 0xFFD0D050, 0xFFE8E85C, 0xFFFCFC68],
  -- orange
  #v[0xFF702800, 0xFF844414, 0xFF985C28, 0xFFAC783C,
     0xFFBC8C4C, 0xFFCCA05C, 0xFFDCB468, 0xFFECC878],
  -- red-orange
  #v[0xFF841800, 0xFF983418, 0xFFAC5030, 0xFFC06848,
     0xFFD0805C, 0xFFE09470, 0xFFECA880, 0xFFFCBC94],
  -- red
  #v[0xFF880000, 0xFF9C2020, 0xFFB03C3C, 0xFFC05858,
     0xFFD07070, 0xFFE08888, 0xFFECA0A0, 0xFFFCB4B4],
  -- magenta
  #v[0xFF78005C, 0xFF8C2074, 0xFFA03C88, 0xFFB0589C,
     0xFFC070B0, 0xFFD084C0, 0xFFDC9CD0, 0xFFECB0E0],
  -- purple
  #v[0xFF480078, 0xFF602090, 0xFF783CA4, 0xFF8C58B8,
     0xFFA070CC, 0xFFB484DC, 0xFFC49CEC, 0xFFD4B0FC],
  -- violet
  #v[0xFF140084, 0xFF302098, 0xFF4C3CAC, 0xFF6858C0,
     0xFF7C70D0, 0xFF9488E0, 0xFFA8A0EC, 0xFFBCB4FC],
  -- blue
  #v[0xFF000088, 0xFF1C209C, 0xFF3840B0, 0xFF505CC0,
     0xFF6874D0, 0xFF7C8CE0, 0xFF90A4EC, 0xFFA4B8FC],
  -- light blue
  #v[0xFF00187C, 0xFF1C3890, 0xFF3854A8, 0xFF5070BC,
     0xFF6888CC, 0xFF7C9CDC, 0xFF90B4EC, 0xFFA4C8FC],
  -- cyan
  #v[0xFF002C5C, 0xFF1C4C78, 0xFF386890, 0xFF5084AC,
     0xFF689CC0, 0xFF7CB4D4, 0xFF90CCE8, 0xFFA4E0FC],
  -- teal
  #v[0xFF003C2C, 0xFF1C5C48, 0xFF387C64, 0xFF509C80,
     0xFF68B494, 0xFF7CD0AC, 0xFF90E4C0, 0xFFA4FCD4],
  -- green
  #v[0xFF003C00, 0xFF205C20, 0xFF407C40, 0xFF5C9C5C,
     0xFF74B474, 0xFF8CD08C, 0xFFA4E4A4, 0xFFB8FCB8],
  -- yellow-green
  #v[0xFF143800, 0xFF345C1C, 0xFF507C38, 0xFF6C9850,
     0xFF84B468, 0xFF9CCC7C, 0xFFB4E490, 0xFFC8FCA4],
  -- olive
  #v[0xFF2C3000, 0xFF4C501C, 0xFF687034, 0xFF848C4C,
     0xFF9CA864, 0xFFB4C078, 0xFFCCD488, 0xFFE0EC9C],
  -- brown
  #v[0xFF442800, 0xFF644818, 0xFF846830, 0xFFA08444,
     0xFFB89C58, 0xFFD0B46C, 0xFFE8CC7C, 0xFFFCE08C]
]

/-- Half the low digit of a code is its luminance. -/
def luminance (code : Byte) : Fin 8 := ⟨code.lowDigit.val / 2, by omega⟩

def colour (code : Byte) : UInt32 := (table.get code.highDigit).get (luminance code)

def red (code : Byte) : Byte := (colour code / 65536).toUInt8

def green (code : Byte) : Byte := (colour code / 256).toUInt8

def blue (code : Byte) : Byte := (colour code).toUInt8

/-- Red, green, blue and full opacity. -/
def rgba (code : Byte) : List Byte := [red code, green code, blue code, 0xFF]

end VideoComputer.Palette
