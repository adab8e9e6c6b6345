set_option autoImplicit false

/-!
# The game script

The game itself is played in the browser, by the script that the game page loads.
-/

namespace Gatehouse

def gameScript : String :=
  "\n".intercalate
    ["document.addEventListener('DOMContentLoaded', () => \x7b",
      "  const boardElement = document.querySelector('.game-board');",
      "  if (!boardElement) \x7b",
      "    return;",
      "  \x7d",
      "",
      "  const rows = Number(boardElement.dataset.rows);",
      "  const cols = Number(boardElement.dataset.cols);",
      "  const mines = Number(boardElement.dataset.mines);",
      "  const timerElement = document.querySelector('.timer');",
      "  const scoreElement = document.querySelector('.score');",
      "  const gameOverElement = document.querySelector('.game-over');",
      "",
      "  let board = [];",
      "  let revealed = 0;",
      "  let finished = false;",
      "  let startedAt = 0;",
      "  let timer = null;",
      "",
      "  function createBoard() \x7b",
      "    const cells = Array.from(\x7b length: rows \x7d, () =>",
      "      Array.from(\x7b length: cols \x7d, () => (\x7b mine: false, open: false, flag: false, adjacent: 0 \x7d))",
      "    );",
      "",
      "    let placed = 0;",
      "    while (placed < mines) \x7b",
      "      const r = Math.floor(Math.random() * rows);",
      "      const c = Math.floor(Math.random() * cols);",
      "      if (!cells[r][c].mine) \x7b",
      "        cells[r][c].mine = true;",
      "        placed++;",
      "      \x7d",
      "    \x7d",
      "",
      "    forEachCell((r, c) => \x7b",
      "      cells[r][c].adjacent = neighbours(r, c).filter(([nr, nc]) => cells[nr][nc].mine).length;",
      "    \x7d);",
      "    return cells;",
      "  \x7d",
      "",
      "  function forEachCell(fn) \x7b",
      "    for (let r = 0; r < rows; r++) \x7b",
      "      for (let c = 0; c < cols; c++) \x7b",
      "        fn(r, c);",
      "      \x7d",
      "    \x7d",
      "  \x7d",
      "",
      "  function neighbours(r, c) \x7b",
      "    const result = [];",
      "    for (let dr = -1; dr <= 1; dr++) \x7b",
      "      for (let dc = -1; dc <= 1; dc++) \x7b",
      "        const nr = r + dr;",
      "        const nc = c + dc;",
      "        if ((dr || dc) && nr >= 0 && nr < rows && nc >= 0 && nc < cols) \x7b",
      "          result.push([nr, nc]);",
      "        \x7d",
      "      \x7d",
      "    \x7d",
      "    return result;",
      "  \x7d",
      "",
      "  function render() \x7b",
      "    boardElement.innerHTML = '';",
      "    boardElement.style.gridTemplateColumns = `repeat($\x7bcols\x7d, 2rem)`;",
      "    forEachCell((r, c) => \x7b",
      "      const cell = board[r][c];",
      "      const element = document.createElement('div');",
      "      element.className = 'cell';",
      "      element.dataset.row = r;",
      "      element.dataset.col = c;",
      "      if (cell.open) \x7b",
      "        element.classList.add('revealed');",
      "        if (cell.mine) \x7b",
      "          element.classList.add('mine');",
      "        \x7d else if (cell.adjacent > 0) \x7b",
      "          element.textContent = cell.adjacent;",
      "        \x7d",
      "      \x7d else if (cell.flag) \x7b",
      "        element.classList.add('flag');",
      "      \x7d",
      "      boardElement.appendChild(element);",
      "    \x7d);",
      "  \x7d",
      "",
      "  function open(r, c) \x7b",
      "    const cell = board[r][c];",
      "    if (cell.open || cell.flag) \x7b",
      "      return;",
      "    \x7d",
      "    cell.open = true;",
      "    revealed++;",
      "    if (cell.adjacent === 0 && !cell.mine) \x7b",
      "      neighbours(r, c).forEach(([nr, nc]) => open(nr, nc));",
      "    \x7d",
      "  \x7d",
      "",
      "  function score() \x7b",
      "    const seconds = Math.floor((Date.now() - startedAt) / 1000);",
      "    return Math.max(0, revealed * 10 - seconds);",
      "  \x7d",
      "",
      "  function finish(won) \x7b",
      "    finished = true;",
      "    clearInterval(timer);",
      "    forEachCell((r, c) => \x7b",
      "      if (board[r][c].mine) \x7b",
      "        board[r][c].open = true;",
      "      \x7d",
      "    \x7d);",
      "    render();",
      "    gameOverElement.textContent = won ? `You win! Score: $\x7bscore()\x7d` : 'Game over!';",
      "    gameOverElement.classList.remove('hidden');",
      "  \x7d",
      "",
      "  function start() \x7b",
      "    board = createBoard();",
      "    revealed = 0;",
      "    finished = false;",
      "    startedAt = Date.now();",
      "    clearInterval(timer);",
      "    timer = setInterval(() => \x7b",
      "      timerElement.textContent = Math.floor((Date.now() - startedAt) / 1000);",
      "      scoreElement.textContent = score();",
      "    \x7d, 1000);",
      "    gameOverElement.classList.add('hidden');",
      "    render();",
      "  \x7d",
      "",
      "  boardElement.addEventListener('click', (event) => \x7b",
      "    const target = event.target.closest('.cell');",
      "    if (!target || finished) \x7b",
      "      return;",
      "    \x7d",
      "    const r = Number(target.dataset.row);",
      "    const c = Number(target.dataset.col);",
      "    if (board[r][c].flag) \x7b",
      "      return;",
      "    \x7d",
      "    if (board[r][c].mine) \x7b",
      "      board[r][c].open = true;",
      "      finish(false);",
      "      return;",
      "    \x7d",
      "    open(r, c);",
      "    scoreElement.textContent = score();",
      "    if (revealed === rows * cols - mines) \x7b",
      "      finish(true);",
      "    \x7d else \x7b",
      "      render();",
      "    \x7d",
      "  \x7d);",
      "",
      "  boardElement.addEventListener('contextmenu', (event) => \x7b",
      "    event.preventDefault();",
      "    const target = event.target.closest('.cell');",
      "    if (!target || finished) \x7b",
      "      return;",
      "    \x7d",
      "    const cell = board[Number(target.dataset.row)][Number(target.dataset.col)];",
      "    if (!cell.open) \x7b",
      "      cell.flag = !cell.flag;",
      "      render();",
      "    \x7d",
      "  \x7d);",
      "",
      "  document.querySelector('.restart').addEventListener('click', start);",
      "  start();",
      "\x7d);",
      ""]

end Gatehouse
