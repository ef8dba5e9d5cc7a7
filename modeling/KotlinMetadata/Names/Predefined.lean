/-!
# Names that every reader knows

A string table may refer to these names by their position in the list instead
of spelling them out.
-/

namespace KotlinMetadata

/-- The known names, in the order that their numbers refer to. -/
def predefinedNames : List String :=
  [ "kotlin/Any"
  , "kotlin/Nothing"
  , "kotlin/Unit"
  , "kotlin/Throwable"
  , "kotlin/Number"
  , "kotlin/Byte"
  , "kotlin/Double"
  , "kotlin/Float"
  , "kotlin/Int"
  , "kotlin/Long"
  , "kotlin/Short"
  , "kotlin/Boolean"
  , "kotlin/Char"
  , "kotlin/CharSequence"
  , "kotlin/String"
  , "kotlin/Comparable"
  , "kotlin/Enum"
  , "kotlin/Array"
  , "kotlin/ByteArray"
  , "kotlin/DoubleArray"
  , "kotlin/FloatArray"
  , "kotlin/IntArray"
  , "kotlin/LongArray"
  , "kotlin/ShortArray"
  , "kotlin/BooleanArray"
  , "kotlin/CharArray"
  , "kotlin/Cloneable"
  , "kotlin/Annotation"
  , "kotlin/collections/Iterable"
  , "kotlin/collections/MutableIterable"
  , "kotlin/collections/Collection"
  , "kotlin/collections/MutableCollection"
  , "kotlin/collections/List"
  , "kotlin/collections/MutableList"
  , "kotlin/collections/Set"
  , "kotlin/collections/MutableSet"
  , "kotlin/collections/Map"
  , "kotlin/collections/MutableMap"
  , "kotlin/collections/Map.Entry"
  , "kotlin/collections/MutableMap.MutableEntry"
  , "kotlin/collections/Iterator"
  , "kotlin/collections/MutableIterator"
  , "kotlin/collections/ListIterator"
  , "kotlin/collections/MutableListIterator" ]

end KotlinMetadata
