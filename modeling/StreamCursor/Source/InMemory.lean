import StreamCursor.Source

/-! Sources whose bytes are all in memory: a byte string, which is copied when it is taken over,
and a buffer, which is handed over as it is, spare room included. -/

namespace StreamCursor

instance : Source Bytes where
  read bytes slot := (.exactly (bytes.take slot.size), bytes.drop slot.size)
  takeAll bytes := (some ⟨bytes, bytes.length⟩, [])

instance : Source Buffer where
  read buffer slot :=
    (.exactly (buffer.bytes.take slot.size),
      { buffer with bytes := buffer.bytes.drop slot.size })
  takeAll buffer := (some buffer, .empty)

end StreamCursor
