import MessageBlocks.Layout.Engine

/-!
# Reference metrics

The metrics of the font in which the chat client shows messages: the alphabet of
list markers and the space glyphs of Unicode.
-/

namespace MessageBlocks

def Metrics.reference : Metrics Float where
  letters := Keyed.ofList
    [(' ', 25.6), ('.', 22.6), ('0', 58.0), ('1', 58.0), ('2', 58.0), ('3', 58.0), ('4', 58.0),
      ('5', 58.0), ('6', 58.0), ('7', 58.0), ('8', 58.0), ('9', 58.0), ('A', 66.8), ('B', 63.0),
      ('C', 65.6), ('D', 73.0), ('E', 55.2), ('F', 53.8), ('G', 71.6), ('H', 75.0), ('I', 28.8),
      ('J', 40.0), ('K', 67.4), ('L', 49.0), ('M', 90.8), ('N', 75.0), ('O', 78.4), ('P', 60.4),
      ('Q', 78.4), ('R', 62.4), ('S', 53.6), ('T', 57.6), ('U', 72.6), ('V', 66.8), ('W', 101.4),
      ('X', 64.6), ('Y', 62.0), ('Z', 59.2), ('a', 50.6), ('b', 56.0), ('c', 46.4), ('d', 56.0),
      ('e', 52.6), ('f', 32.6), ('g', 50.0), ('h', 55.6), ('i', 23.8), ('j', 23.6), ('k', 49.6),
      ('l', 23.8), ('m', 83.8), ('n', 55.6), ('o', 55.6), ('p', 55.0), ('q', 55.6), ('r', 36.4),
      ('s', 42.6), ('t', 35.0), ('u', 55.6), ('v', 50.4), ('w', 76.4), ('x', 48.4), ('y', 50.4),
      ('z', 44.8), ('•', 36.4), ('▪', 34.0), ('◦', 41.2)]
  spaces := Keyed.ofList
    [("\u2002", 50.0), ("\u2003", 100.0), ("\u2004", 33.33), ("\u2005", 25.0), ("\u2006", 16.67),
      ("\u2007", 58.0), ("\u2008", 22.6), ("\u2009", 20.0), ("\u200a", 8.33)]

def Engine.reference : Engine Float :=
  ⟨.reference, defaultFallback⟩

end MessageBlocks
