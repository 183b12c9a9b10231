import GlyphStrip.Font.Basic

/-!
# Owned storage of a font

A buffer keeps the bytes of a font in one block of memory. It can be seen as a font and be taken
apart into its bytes again.
-/

namespace GlyphStrip

/-- A block of memory that holds a font. -/
structure FontBuffer where
  storage : Array UInt8
  size_storage : storage.size = fontSize
deriving DecidableEq

namespace FontBuffer

/-- Copies a font into memory of its own. -/
def ofFont (font : Font) : FontBuffer :=
  ⟨font.bytes.toArray, by rw [List.size_toArray, font.length_bytes]⟩

/-- The font that the buffer holds. -/
def font (buffer : FontBuffer) : Font :=
  ⟨buffer.storage.toList, by rw [Array.length_toList, buffer.size_storage]⟩

/-- Gives up the buffer for its bytes. -/
def toBytes (buffer : FontBuffer) : List UInt8 :=
  buffer.storage.toList

@[simp] theorem font_ofFont (font : Font) : (ofFont font).font = font := by
  cases font
  simp [ofFont, FontBuffer.font]

@[simp] theorem toBytes_ofFont (font : Font) : (ofFont font).toBytes = font.bytes := by
  simp [ofFont, toBytes]

end FontBuffer

end GlyphStrip
